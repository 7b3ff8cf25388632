import Mathlib

/-!
# Base 58

A list of digits, the most significant first, is a number of leading zeros and the number the
rest stands for. Both are kept when the digits are written in another base, so the conversion
can be undone. Base 58 is the conversion from bytes, with a character for each digit.
-/
namespace AgentExchange.Library

/-! ## Changing the base -/

namespace Radix

def zeros (ds : List ℕ) : ℕ := (ds.takeWhile (· = 0)).length

def value (base : ℕ) (ds : List ℕ) : ℕ := Nat.ofDigits base ds.reverse

/-- So many zeros, then the digits of a number. -/
def write (base z n : ℕ) : List ℕ := List.replicate z 0 ++ (Nat.digits base n).reverse

/-- The same zeros and the same number in another base. -/
def rebase (source target : ℕ) (ds : List ℕ) : List ℕ :=
  write target (zeros ds) (value source ds)

theorem digits_reverse_head {base n : ℕ} : ∀ d ∈ (Nat.digits base n).reverse.head?, d ≠ 0 := by
  intro d hd
  rw [List.head?_reverse] at hd
  have hne : Nat.digits base n ≠ [] := by
    intro h
    rw [h] at hd
    cases hd
  have hn : n ≠ 0 := Nat.digits_ne_nil_iff_ne_zero.mp hne
  rw [List.getLast?_eq_getLast_of_ne_nil hne] at hd
  rw [← Option.some.inj hd]
  exact Nat.getLast_digit_ne_zero base hn

theorem takeWhile_zero_of_head {ds : List ℕ} (h : ∀ d ∈ ds.head?, d ≠ 0) :
    ds.takeWhile (· = 0) = [] := by
  cases ds with
  | nil => rfl
  | cons d ds => simp [h d rfl]

theorem zeros_write (base z n : ℕ) : zeros (write base z n) = z := by
  have hzero : ∀ d ∈ List.replicate z 0, decide (d = 0) = true := by
    intro d hd
    simp [List.eq_of_mem_replicate hd]
  rw [zeros, write, List.takeWhile_append_of_pos hzero,
    takeWhile_zero_of_head digits_reverse_head, List.append_nil, List.length_replicate]

theorem value_write (base z n : ℕ) : value base (write base z n) = n := by
  rw [value, write, List.reverse_append, List.reverse_reverse, List.reverse_replicate,
    Nat.ofDigits_append_replicate_zero, Nat.ofDigits_digits]

/-- What is left after the zeros. -/
theorem eq_zeros_append (ds : List ℕ) :
    ds = List.replicate (zeros ds) 0 ++ ds.dropWhile (· = 0) := by
  have hzeros : ds.takeWhile (· = 0) = List.replicate (zeros ds) 0 := by
    apply List.eq_replicate_iff.mpr
    refine ⟨rfl, ?_⟩
    intro d hd
    simpa using List.mem_takeWhile_imp hd
  rw [← hzeros]
  exact (List.takeWhile_append_dropWhile).symm

theorem value_eq_dropWhile (base : ℕ) (ds : List ℕ) :
    value base ds = Nat.ofDigits base (ds.dropWhile (· = 0)).reverse := by
  rw [value]
  conv_lhs => rw [eq_zeros_append ds]
  rw [List.reverse_append, List.reverse_replicate, Nat.ofDigits_append_replicate_zero]

/-- Digits are determined by their zeros and their value. -/
theorem write_zeros_value {base : ℕ} {ds : List ℕ} (hbase : 1 < base) (h : ∀ d ∈ ds, d < base) :
    write base (zeros ds) (value base ds) = ds := by
  have hdigits : Nat.digits base (value base ds) = (ds.dropWhile (· = 0)).reverse := by
    rw [value_eq_dropWhile]
    apply Nat.digits_ofDigits base hbase
    · intro d hd
      exact h d ((List.dropWhile_sublist _).subset (List.mem_reverse.mp hd))
    · intro hne
      rw [List.getLast_reverse]
      have hhead := List.head_dropWhile_not (p := fun d : ℕ => decide (d = 0)) (by simpa using hne)
      simpa using hhead
  rw [write, hdigits, List.reverse_reverse]
  exact (eq_zeros_append ds).symm

theorem rebase_rebase {source target : ℕ} {ds : List ℕ} (hsource : 1 < source)
    (h : ∀ d ∈ ds, d < source) : rebase target source (rebase source target ds) = ds := by
  rw [rebase, rebase, zeros_write, value_write]
  exact write_zeros_value hsource h

theorem lt_of_mem_rebase {source target : ℕ} {ds : List ℕ} (htarget : 1 < target) :
    ∀ d ∈ rebase source target ds, d < target := by
  intro d hd
  rcases List.mem_append.mp hd with hd | hd
  · rw [List.eq_of_mem_replicate hd]
    omega
  · exact Nat.digits_lt_base htarget (List.mem_reverse.mp hd)

/-- Where `m` digits of the target do for one of the source, so they do for all. -/
theorem length_rebase_le {source target m : ℕ} {ds : List ℕ} (hsource : 1 < source)
    (htarget : 1 < target) (hm : 1 ≤ m) (hpow : source ≤ target ^ m) (h : ∀ d ∈ ds, d < source) :
    (rebase source target ds).length ≤ m * ds.length := by
  set rest := ds.dropWhile (· = 0) with hrest
  have hlength : ds.length = zeros ds + rest.length := by
    conv_lhs => rw [eq_zeros_append ds]
    rw [List.length_append, List.length_replicate]
  have hvalue : value source ds < target ^ (m * rest.length) := by
    calc value source ds < source ^ rest.length := by
          rw [value_eq_dropWhile, ← hrest, ← @List.length_reverse _ rest]
          apply Nat.ofDigits_lt_base_pow_length hsource
          intro d hd
          exact h d ((List.dropWhile_sublist _).subset (List.mem_reverse.mp hd))
      _ ≤ (target ^ m) ^ rest.length := Nat.pow_le_pow_left hpow _
      _ = target ^ (m * rest.length) := (pow_mul target m rest.length).symm
  have hdigits := (Nat.digits_length_le_iff htarget (value source ds)).mpr hvalue
  rw [rebase, write, List.length_append, List.length_replicate, List.length_reverse, hlength,
    Nat.mul_add]
  have hzeros : zeros ds ≤ m * zeros ds := Nat.le_mul_of_pos_left _ hm
  omega

end Radix

/-! ## The alphabet -/

namespace Base58

def alphabet : List Char := "123456789ABCDEFGHJKLMNPQRSTUVWXYZabcdefghijkmnopqrstuvwxyz".toList

theorem alphabet_length : alphabet.length = 58 := by decide

theorem alphabet_nodup : alphabet.Nodup := by decide

def digitChar (d : ℕ) : Char := alphabet.getD d '1'

def charDigit (c : Char) : Option ℕ := if c ∈ alphabet then some (alphabet.idxOf c) else none

theorem digitChar_mem {d : ℕ} (h : d < 58) : digitChar d ∈ alphabet := by
  rw [digitChar, List.getD_eq_getElem _ _ (by rw [alphabet_length]; exact h)]
  exact List.getElem_mem _

theorem charDigit_digitChar {d : ℕ} (h : d < 58) : charDigit (digitChar d) = some d := by
  have hd : d < alphabet.length := by rw [alphabet_length]; exact h
  rw [charDigit, if_pos (digitChar_mem h), digitChar, List.getD_eq_getElem _ _ hd,
    alphabet_nodup.idxOf_getElem d hd]

theorem charDigit_eq_some {c : Char} {d : ℕ} (h : charDigit c = some d) :
    d < 58 ∧ digitChar d = c := by
  unfold charDigit at h
  split_ifs at h with hmem
  cases h
  have hlt := List.idxOf_lt_length_of_mem hmem
  constructor
  · rwa [alphabet_length] at hlt
  · rw [digitChar, List.getD_eq_getElem _ _ hlt, List.getElem_idxOf]

def encode (bytes : List UInt8) : String :=
  String.ofList ((Radix.rebase 256 58 (bytes.map UInt8.toNat)).map digitChar)

def decode (s : String) : Option (List UInt8) :=
  (s.toList.mapM charDigit).map fun ds => (Radix.rebase 58 256 ds).map UInt8.ofNat

theorem mapM_charDigit {cs : List Char} {ds : List ℕ} :
    cs.mapM charDigit = some ds ↔ (∀ d ∈ ds, d < 58) ∧ cs = ds.map digitChar := by
  induction cs generalizing ds with
  | nil => cases ds <;> simp
  | cons c cs ih =>
    rw [List.mapM_cons, Option.bind_eq_bind, Option.bind_eq_some_iff]
    constructor
    · intro h
      obtain ⟨d, hd, h⟩ := h
      obtain ⟨tail, htail, h⟩ := Option.bind_eq_some_iff.mp h
      cases h
      obtain ⟨hlt, rfl⟩ := charDigit_eq_some hd
      obtain ⟨hall, rfl⟩ := ih.mp htail
      exact ⟨List.forall_mem_cons.mpr ⟨hlt, hall⟩, rfl⟩
    · intro h
      obtain ⟨hall, hcs⟩ := h
      cases ds with
      | nil => cases hcs
      | cons d ds =>
        obtain ⟨hd, hall⟩ := List.forall_mem_cons.mp hall
        obtain ⟨rfl, rfl⟩ := List.cons.inj hcs
        refine ⟨d, charDigit_digitChar hd, ?_⟩
        exact Option.bind_eq_some_iff.mpr ⟨ds, ih.mpr ⟨hall, rfl⟩, rfl⟩

theorem toNat_lt_of_mem {bytes : List UInt8} : ∀ d ∈ bytes.map UInt8.toNat, d < 256 := by
  intro d hd
  obtain ⟨b, -, rfl⟩ := List.mem_map.mp hd
  exact b.toNat_lt

/-- What was encoded decodes to itself. -/
theorem decode_encode (bytes : List UInt8) : decode (encode bytes) = some bytes := by
  have hdigits : (encode bytes).toList.mapM charDigit =
      some (Radix.rebase 256 58 (bytes.map UInt8.toNat)) := by
    apply mapM_charDigit.mpr
    exact ⟨Radix.lt_of_mem_rebase (by decide), String.toList_ofList⟩
  rw [decode, hdigits, Option.map_some, Radix.rebase_rebase (by decide) toNat_lt_of_mem,
    List.map_map]
  congr 1
  exact (List.map_congr_left fun b _ => UInt8.ofNat_toNat).trans (List.map_id bytes)

/-- Every text that decodes is the encoding of what it decodes to. -/
theorem encode_of_decode {s : String} {bytes : List UInt8} (h : decode s = some bytes) :
    encode bytes = s := by
  obtain ⟨ds, hds, rfl⟩ := Option.map_eq_some_iff.mp h
  obtain ⟨hall, hs⟩ := mapM_charDigit.mp hds
  have hbytes : ((Radix.rebase 58 256 ds).map UInt8.ofNat).map UInt8.toNat =
      Radix.rebase 58 256 ds := by
    rw [List.map_map]
    refine (List.map_congr_left ?_).trans (List.map_id _)
    intro d hd
    exact UInt8.toNat_ofNat_of_lt (Radix.lt_of_mem_rebase (by decide) d hd)
  rw [encode, hbytes, Radix.rebase_rebase (by decide) hall, ← hs, String.ofList_toList]

theorem mem_alphabet_of_mem_encode {bytes : List UInt8} {c : Char}
    (h : c ∈ (encode bytes).toList) : c ∈ alphabet := by
  rw [encode, String.toList_ofList] at h
  obtain ⟨d, hd, rfl⟩ := List.mem_map.mp h
  exact digitChar_mem (Radix.lt_of_mem_rebase (by decide) d hd)

theorem length_encode_le (bytes : List UInt8) : (encode bytes).toList.length ≤ 2 * bytes.length := by
  rw [encode, String.toList_ofList, List.length_map, ← List.length_map (f := UInt8.toNat)]
  exact Radix.length_rebase_le (by decide) (by decide) (by decide) (by decide) toNat_lt_of_mem

end Base58

end AgentExchange.Library
