import Mathlib.Tactic

/-!
# Address blocks

An address of `w` bits is a number below `2 ^ w`. A block holds the addresses that
agree with its base on the leading bits. Testing an address against a bit mask is
membership in a block, and a block of short addresses stays a block when the addresses
are embedded in a larger space.
-/
namespace AgentExchange.Library

/-- `base/length`. -/
structure Cidr (w : ℕ) where
  base : ℕ
  length : ℕ
  base_lt : base < 2 ^ w
  length_le : length ≤ w

namespace Cidr

variable {w : ℕ}

/-- The address agrees with the base on the first `length` bits. -/
def Contains (c : Cidr w) (n : ℕ) : Prop := n / 2 ^ (w - c.length) = c.base / 2 ^ (w - c.length)

instance (c : Cidr w) (n : ℕ) : Decidable (c.Contains n) :=
  inferInstanceAs (Decidable (n / 2 ^ (w - c.length) = c.base / 2 ^ (w - c.length)))

/-- Clearing the low bits with a mask. -/
theorem and_mask {n k : ℕ} (hn : n < 2 ^ w) (hk : k ≤ w) :
    n &&& (2 ^ w - 2 ^ k) = 2 ^ k * (n / 2 ^ k) := by
  have hmask : 2 ^ w - 2 ^ k = 2 ^ k * (2 ^ (w - k) - 1) := by
    rw [Nat.mul_sub, ← Nat.pow_add, Nat.add_sub_cancel' hk, Nat.mul_one]
  apply Nat.eq_of_testBit_eq
  intro i
  rw [hmask, Nat.testBit_and, Nat.testBit_two_pow_mul, Nat.testBit_two_pow_mul,
    Nat.testBit_div_two_pow, Nat.testBit_two_pow_sub_one]
  by_cases hi : k ≤ i
  · by_cases hiw : i < w
    · simp [hi, show i - k < w - k by omega]
    · have hfar : n.testBit i = false := by
        apply Nat.testBit_lt_two_pow
        calc n < 2 ^ w := hn
          _ ≤ 2 ^ i := Nat.pow_le_pow_right (by omega) (by omega)
      simp [hi, hfar]
  · simp [hi]

/-- A mask test compares the leading bits. -/
theorem and_mask_eq_iff {n k b : ℕ} (hn : n < 2 ^ w) (hk : k ≤ w) :
    n &&& (2 ^ w - 2 ^ k) = 2 ^ k * b ↔ n / 2 ^ k = b := by
  rw [and_mask hn hk]
  constructor
  · intro h
    exact Nat.eq_of_mul_eq_mul_left (Nat.two_pow_pos k) h
  · intro h
    rw [h]

/-- The addresses `2 ^ w * high + n` for `n` in the block. -/
def embed (c : Cidr w) (w' high : ℕ) (hfit : 2 ^ w * high + c.base < 2 ^ w') (hw : w ≤ w') :
    Cidr w' where
  base := 2 ^ w * high + c.base
  length := w' - w + c.length
  base_lt := hfit
  length_le := by
    have := c.length_le
    omega

theorem embed_contains {c : Cidr w} {w' high : ℕ} {hfit : 2 ^ w * high + c.base < 2 ^ w'}
    {hw : w ≤ w'} {n : ℕ} :
    (c.embed w' high hfit hw).Contains n ↔ n / 2 ^ w = high ∧ c.Contains (n % 2 ^ w) := by
  have hlength := c.length_le
  have hbits : w' - (w' - w + c.length) = w - c.length := by omega
  have hsplit : 2 ^ w = 2 ^ (w - c.length) * 2 ^ c.length := by
    rw [← Nat.pow_add]
    congr 1
    omega
  -- the quotient by the block size splits at the embedding
  have hdiv (a b : ℕ) : (2 ^ w * a + b) / 2 ^ (w - c.length) =
      2 ^ c.length * a + b / 2 ^ (w - c.length) := by
    rw [hsplit, Nat.mul_assoc, Nat.mul_add_div (Nat.two_pow_pos _)]
  have hlow {b : ℕ} (hb : b < 2 ^ w) : b / 2 ^ (w - c.length) < 2 ^ c.length := by
    rw [Nat.div_lt_iff_lt_mul (Nat.two_pow_pos _), Nat.mul_comm, ← hsplit]
    exact hb
  simp only [Contains, embed, hbits]
  conv_lhs => rw [← Nat.div_add_mod n (2 ^ w), hdiv, hdiv]
  have hn := hlow (Nat.mod_lt n (Nat.two_pow_pos w))
  have hc := hlow c.base_lt
  constructor
  · intro h
    have hhigh : n / 2 ^ w = high := by
      have hquotient := congrArg (· / 2 ^ c.length) h
      simpa [Nat.mul_add_div (Nat.two_pow_pos c.length), Nat.div_eq_of_lt hn,
        Nat.div_eq_of_lt hc] using hquotient
    rw [hhigh] at h
    exact ⟨hhigh, Nat.add_left_cancel h⟩
  · rintro ⟨rfl, h⟩
    rw [h]

end Cidr

end AgentExchange.Library
