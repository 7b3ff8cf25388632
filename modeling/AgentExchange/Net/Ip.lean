import AgentExchange.Library.Cidr

/-!
# Forbidden addresses

`is_forbidden_ip`: the predicates of `std::net` and the two masks, checked one after the
other. They decide membership in a list of address blocks, where an IPv6 address that
carries an IPv4 one is judged by it.
-/
namespace AgentExchange.Net

open Library

/-- `Ipv4Addr`, by its octets. -/
@[ext]
structure Ipv4Addr where
  a : UInt8
  b : UInt8
  c : UInt8
  d : UInt8
  deriving DecidableEq

/-- `Ipv6Addr`, by its segments. -/
@[ext]
structure Ipv6Addr where
  s0 : UInt16
  s1 : UInt16
  s2 : UInt16
  s3 : UInt16
  s4 : UInt16
  s5 : UInt16
  s6 : UInt16
  s7 : UInt16
  deriving DecidableEq

inductive IpAddr where
  | v4 (ip : Ipv4Addr)
  | v6 (ip : Ipv6Addr)
  deriving DecidableEq

namespace Ipv4Addr

def isLoopback (ip : Ipv4Addr) : Bool := ip.a = 127

def isPrivate (ip : Ipv4Addr) : Bool :=
  ip.a = 10 || (ip.a = 172 && 16 ≤ ip.b && ip.b ≤ 31) || (ip.a = 192 && ip.b = 168)

def isLinkLocal (ip : Ipv4Addr) : Bool := ip.a = 169 && ip.b = 254

def isMulticast (ip : Ipv4Addr) : Bool := 224 ≤ ip.a && ip.a ≤ 239

def isBroadcast (ip : Ipv4Addr) : Bool := ip = ⟨255, 255, 255, 255⟩

def isUnspecified (ip : Ipv4Addr) : Bool := ip = ⟨0, 0, 0, 0⟩

/-- The address as a number of 32 bits. -/
def toNat (ip : Ipv4Addr) : ℕ :=
  ip.a.toNat * 2 ^ 24 + ip.b.toNat * 2 ^ 16 + ip.c.toNat * 2 ^ 8 + ip.d.toNat

end Ipv4Addr

def isForbiddenIpv4 (ip : Ipv4Addr) : Bool :=
  if ip.isLoopback then true
  else if ip.isPrivate then true
  else if ip.isLinkLocal then true
  else if ip.isMulticast then true
  else if ip.isBroadcast then true
  else if ip.isUnspecified then true
  else if 240 ≤ ip.a then true
  else false

namespace Ipv6Addr

def isLoopback (ip : Ipv6Addr) : Bool := ip = ⟨0, 0, 0, 0, 0, 0, 0, 1⟩

def isUnspecified (ip : Ipv6Addr) : Bool := ip = ⟨0, 0, 0, 0, 0, 0, 0, 0⟩

def isMulticast (ip : Ipv6Addr) : Bool := ip.s0 &&& 0xff00 = 0xff00

/-- The IPv4 address in the two last segments. -/
def lastV4 (ip : Ipv6Addr) : Ipv4Addr :=
  ⟨(ip.s6 >>> 8).toUInt8, (ip.s6 &&& 0xff).toUInt8, (ip.s7 >>> 8).toUInt8,
    (ip.s7 &&& 0xff).toUInt8⟩

def toIpv4Mapped (ip : Ipv6Addr) : Option Ipv4Addr :=
  if ip.s0 = 0 ∧ ip.s1 = 0 ∧ ip.s2 = 0 ∧ ip.s3 = 0 ∧ ip.s4 = 0 ∧ ip.s5 = 0xffff then some ip.lastV4
  else none

/-- The address as a number of 128 bits. -/
def toNat (ip : Ipv6Addr) : ℕ :=
  ip.s0.toNat * 2 ^ 112 + ip.s1.toNat * 2 ^ 96 + ip.s2.toNat * 2 ^ 80 + ip.s3.toNat * 2 ^ 64 +
    ip.s4.toNat * 2 ^ 48 + ip.s5.toNat * 2 ^ 32 + ip.s6.toNat * 2 ^ 16 + ip.s7.toNat

end Ipv6Addr

def isForbiddenIpv6 (ip : Ipv6Addr) : Bool :=
  if ip.isLoopback || ip.isUnspecified then true
  else if ip.isMulticast then true
  else if ip.s0 &&& 0xffc0 = 0xfe80 then true
  else if ip.s0 &&& 0xfe00 = 0xfc00 then true
  else
    match ip.toIpv4Mapped with
    | some v4 => isForbiddenIpv4 v4
    | none =>
      if ip.s0 = 0 ∧ ip.s1 = 0 ∧ ip.s2 = 0 ∧ ip.s3 = 0 ∧ ip.s4 = 0 ∧ ip.s5 = 0 then
        isForbiddenIpv4 ip.lastV4
      else false

def isForbiddenIp : IpAddr → Bool
  | .v4 ip => isForbiddenIpv4 ip
  | .v6 ip => isForbiddenIpv6 ip

/-! ## The blocks -/

/-- `127.0.0.0/8`, `10.0.0.0/8`, `172.16.0.0/12`, `192.168.0.0/16`, `169.254.0.0/16`,
`224.0.0.0/4`, `240.0.0.0/4` and `0.0.0.0`. -/
def forbiddenBlocks4 : List (Cidr 32) :=
  [⟨127 * 2 ^ 24, 8, by norm_num, by norm_num⟩,
    ⟨10 * 2 ^ 24, 8, by norm_num, by norm_num⟩,
    ⟨172 * 2 ^ 24 + 16 * 2 ^ 16, 12, by norm_num, by norm_num⟩,
    ⟨192 * 2 ^ 24 + 168 * 2 ^ 16, 16, by norm_num, by norm_num⟩,
    ⟨169 * 2 ^ 24 + 254 * 2 ^ 16, 16, by norm_num, by norm_num⟩,
    ⟨224 * 2 ^ 24, 4, by norm_num, by norm_num⟩,
    ⟨240 * 2 ^ 24, 4, by norm_num, by norm_num⟩,
    ⟨0, 32, by norm_num, by norm_num⟩]

/-- The block of the addresses `::ffff:a.b.c.d` with `a.b.c.d` in the given one. -/
def mappedBlock (c : Cidr 32) : Cidr 128 :=
  c.embed 128 0xffff (by have := c.base_lt; omega) (by norm_num)

/-- The block of the addresses `::a.b.c.d` with `a.b.c.d` in the given one. -/
def compatibleBlock (c : Cidr 32) : Cidr 128 :=
  c.embed 128 0 (by have := c.base_lt; omega) (by norm_num)

/-- `::1`, `::`, `fc00::/7`, `fe80::/10` and `ff00::/8`. -/
def ownBlocks6 : List (Cidr 128) :=
  [⟨1, 128, by norm_num, by norm_num⟩,
    ⟨0, 128, by norm_num, by norm_num⟩,
    ⟨0xfc00 * 2 ^ 112, 7, by norm_num, by norm_num⟩,
    ⟨0xfe80 * 2 ^ 112, 10, by norm_num, by norm_num⟩,
    ⟨0xff00 * 2 ^ 112, 8, by norm_num, by norm_num⟩]

/-- The IPv6 blocks and the two embeddings of the IPv4 ones. -/
def forbiddenBlocks6 : List (Cidr 128) :=
  ownBlocks6 ++ forbiddenBlocks4.map mappedBlock ++ forbiddenBlocks4.map compatibleBlock

/-- The address lies in one of the blocks. -/
def InForbiddenBlock : IpAddr → Prop
  | .v4 ip => ∃ c ∈ forbiddenBlocks4, c.Contains ip.toNat
  | .v6 ip => ∃ c ∈ forbiddenBlocks6, c.Contains ip.toNat

theorem exists_block4_iff {n : ℕ} :
    (∃ c ∈ forbiddenBlocks4, c.Contains n) ↔
      n / 2 ^ 24 = 127 ∨ n / 2 ^ 24 = 10 ∨ n / 2 ^ 20 = 2753 ∨ n / 2 ^ 16 = 49320 ∨
        n / 2 ^ 16 = 43518 ∨ n / 2 ^ 28 = 14 ∨ n / 2 ^ 28 = 15 ∨ n = 0 := by
  simp [forbiddenBlocks4, Cidr.Contains]

/-- The leading bits of an address, in terms of its octets. -/
theorem Ipv4Addr.leading (ip : Ipv4Addr) :
    ip.toNat / 2 ^ 24 = ip.a.toNat ∧ ip.toNat / 2 ^ 20 = 16 * ip.a.toNat + ip.b.toNat / 16 ∧
      ip.toNat / 2 ^ 16 = 256 * ip.a.toNat + ip.b.toNat ∧ ip.toNat / 2 ^ 28 = ip.a.toNat / 16 ∧
      (ip.toNat = 0 ↔ ip.a.toNat = 0 ∧ ip.b.toNat = 0 ∧ ip.c.toNat = 0 ∧ ip.d.toNat = 0) := by
  have ha := ip.a.toNat_lt
  have hb := ip.b.toNat_lt
  have hc := ip.c.toNat_lt
  have hd := ip.d.toNat_lt
  unfold Ipv4Addr.toNat
  omega

theorem isForbiddenIpv4_iff {ip : Ipv4Addr} :
    isForbiddenIpv4 ip = true ↔ ∃ c ∈ forbiddenBlocks4, c.Contains ip.toNat := by
  obtain ⟨h24, h20, h16, h28, hzero⟩ := ip.leading
  rw [exists_block4_iff, h24, h20, h16, h28, hzero]
  simp only [isForbiddenIpv4, Ipv4Addr.isLoopback, Ipv4Addr.isPrivate, Ipv4Addr.isLinkLocal,
    Ipv4Addr.isMulticast, Ipv4Addr.isBroadcast, Ipv4Addr.isUnspecified, Ipv4Addr.ext_iff,
    UInt8.le_iff_toNat_le, ← UInt8.toNat_inj, Bool.or_eq_true, Bool.and_eq_true,
    decide_eq_true_eq, UInt8.reduceToNat, Bool.if_true_left, Bool.if_false_right]
  have ha := ip.a.toNat_lt
  have hb := ip.b.toNat_lt
  have hprivate12 : 16 * ip.a.toNat + ip.b.toNat / 16 = 2753 ↔
      (ip.a.toNat = 172 ∧ 16 ≤ ip.b.toNat) ∧ ip.b.toNat ≤ 31 := by omega
  have hprivate16 : 256 * ip.a.toNat + ip.b.toNat = 49320 ↔
      ip.a.toNat = 192 ∧ ip.b.toNat = 168 := by omega
  have hlinkLocal : 256 * ip.a.toNat + ip.b.toNat = 43518 ↔
      ip.a.toNat = 169 ∧ ip.b.toNat = 254 := by omega
  have hmulticast : ip.a.toNat / 16 = 14 ↔ 224 ≤ ip.a.toNat ∧ ip.a.toNat ≤ 239 := by omega
  have hreserved : ip.a.toNat / 16 = 15 ↔ 240 ≤ ip.a.toNat := by omega
  -- the broadcast address is one of the reserved ones
  have hbroadcast : ip.a.toNat = 255 → 240 ≤ ip.a.toNat := by omega
  rw [hprivate12, hprivate16, hlinkLocal, hmulticast, hreserved]
  grind

theorem exists_block6_iff {n : ℕ} :
    (∃ c ∈ forbiddenBlocks6, c.Contains n) ↔
      n = 1 ∨ n = 0 ∨ n / 2 ^ 121 = 126 ∨ n / 2 ^ 118 = 1018 ∨ n / 2 ^ 120 = 255 ∨
        (n / 2 ^ 32 = 0xffff ∧ ∃ c ∈ forbiddenBlocks4, c.Contains (n % 2 ^ 32)) ∨
          (n / 2 ^ 32 = 0 ∧ ∃ c ∈ forbiddenBlocks4, c.Contains (n % 2 ^ 32)) := by
  have hembedded (high : ℕ) (block : Cidr 32 → Cidr 128)
      (hblock : ∀ c, (block c).Contains n ↔ n / 2 ^ 32 = high ∧ c.Contains (n % 2 ^ 32)) :
      (∃ c ∈ forbiddenBlocks4.map block, c.Contains n) ↔
        n / 2 ^ 32 = high ∧ ∃ c ∈ forbiddenBlocks4, c.Contains (n % 2 ^ 32) := by
    simp only [List.mem_map, exists_exists_and_eq_and, hblock]
    constructor
    · rintro ⟨c, hc, hhigh, hlow⟩
      exact ⟨hhigh, c, hc, hlow⟩
    · rintro ⟨hhigh, c, hc, hlow⟩
      exact ⟨c, hc, hhigh, hlow⟩
  have hmapped := hembedded 0xffff mappedBlock fun c => Cidr.embed_contains
  have hcompatible := hembedded 0 compatibleBlock fun c => Cidr.embed_contains
  have hown : (∃ c ∈ ownBlocks6, c.Contains n) ↔
      n = 1 ∨ n = 0 ∨ n / 2 ^ 121 = 126 ∨ n / 2 ^ 118 = 1018 ∨ n / 2 ^ 120 = 255 := by
    simp [ownBlocks6, Cidr.Contains]
  simp only [forbiddenBlocks6, List.mem_append, or_and_right, exists_or, hmapped, hcompatible,
    hown, or_assoc]

/-- The leading bits and the embedded IPv4 address, in terms of the segments. -/
theorem Ipv6Addr.leading (ip : Ipv6Addr) :
    ip.toNat / 2 ^ 121 = ip.s0.toNat / 2 ^ 9 ∧ ip.toNat / 2 ^ 118 = ip.s0.toNat / 2 ^ 6 ∧
      ip.toNat / 2 ^ 120 = ip.s0.toNat / 2 ^ 8 ∧
      ip.toNat / 2 ^ 32 = ip.s0.toNat * 2 ^ 80 + ip.s1.toNat * 2 ^ 64 + ip.s2.toNat * 2 ^ 48 +
        ip.s3.toNat * 2 ^ 32 + ip.s4.toNat * 2 ^ 16 + ip.s5.toNat ∧
      ip.toNat % 2 ^ 32 = ip.s6.toNat * 2 ^ 16 + ip.s7.toNat := by
  have h0 := ip.s0.toNat_lt
  have h1 := ip.s1.toNat_lt
  have h2 := ip.s2.toNat_lt
  have h3 := ip.s3.toNat_lt
  have h4 := ip.s4.toNat_lt
  have h5 := ip.s5.toNat_lt
  have h6 := ip.s6.toNat_lt
  have h7 := ip.s7.toNat_lt
  unfold Ipv6Addr.toNat
  omega

theorem Ipv6Addr.lastV4_toNat (ip : Ipv6Addr) :
    ip.lastV4.toNat = ip.s6.toNat * 2 ^ 16 + ip.s7.toNat := by
  have h6 := ip.s6.toNat_lt
  have h7 := ip.s7.toNat_lt
  have hlow (n : ℕ) : n &&& 255 = n % 256 := Nat.and_two_pow_sub_one_eq_mod n 8
  simp only [Ipv4Addr.toNat, Ipv6Addr.lastV4, UInt16.toNat_toUInt8, UInt16.toNat_shiftRight,
    UInt16.toNat_and, UInt16.reduceToNat, Nat.shiftRight_eq_div_pow, hlow, Nat.reduceMod,
    Nat.reducePow]
  omega

/-- A mask of the first segment tests its leading bits. -/
theorem segment_mask (s : UInt16) {k b : ℕ} {mask value : UInt16} (hk : k ≤ 16)
    (hmask : mask.toNat = 2 ^ 16 - 2 ^ k) (hvalue : value.toNat = 2 ^ k * b) :
    s &&& mask = value ↔ s.toNat / 2 ^ k = b := by
  rw [← UInt16.toNat_inj, UInt16.toNat_and, hmask, hvalue]
  exact Cidr.and_mask_eq_iff s.toNat_lt hk

theorem Ipv6Addr.mapped_iff (ip : Ipv6Addr) :
    (ip.s0 = 0 ∧ ip.s1 = 0 ∧ ip.s2 = 0 ∧ ip.s3 = 0 ∧ ip.s4 = 0 ∧ ip.s5 = 0xffff) ↔
      ip.toNat / 2 ^ 32 = 0xffff := by
  have h5 := ip.s5.toNat_lt
  rw [ip.leading.2.2.2.1]
  simp only [← UInt16.toNat_inj, UInt16.reduceToNat]
  omega

theorem Ipv6Addr.compatible_iff (ip : Ipv6Addr) :
    (ip.s0 = 0 ∧ ip.s1 = 0 ∧ ip.s2 = 0 ∧ ip.s3 = 0 ∧ ip.s4 = 0 ∧ ip.s5 = 0) ↔
      ip.toNat / 2 ^ 32 = 0 := by
  rw [ip.leading.2.2.2.1]
  simp only [← UInt16.toNat_inj, UInt16.reduceToNat]
  omega

theorem Ipv6Addr.special_iff (ip : Ipv6Addr) :
    (ip.isLoopback = true ↔ ip.toNat = 1) ∧ (ip.isUnspecified = true ↔ ip.toNat = 0) := by
  have h7 := ip.s7.toNat_lt
  simp only [Ipv6Addr.isLoopback, Ipv6Addr.isUnspecified, Ipv6Addr.ext_iff, decide_eq_true_eq,
    ← UInt16.toNat_inj, UInt16.reduceToNat, Ipv6Addr.toNat]
  omega

theorem isForbiddenIpv6_iff {ip : Ipv6Addr} :
    isForbiddenIpv6 ip = true ↔ ∃ c ∈ forbiddenBlocks6, c.Contains ip.toNat := by
  obtain ⟨h121, h118, h120, -, hlow⟩ := ip.leading
  have hmulticast : ip.s0 &&& 0xff00 = 0xff00 ↔ ip.s0.toNat / 2 ^ 8 = 255 :=
    segment_mask ip.s0 (by norm_num) (by decide) (by decide)
  have hlinkLocal : ip.s0 &&& 0xffc0 = 0xfe80 ↔ ip.s0.toNat / 2 ^ 6 = 1018 :=
    segment_mask ip.s0 (by norm_num) (by decide) (by decide)
  have huniqueLocal : ip.s0 &&& 0xfe00 = 0xfc00 ↔ ip.s0.toNat / 2 ^ 9 = 126 :=
    segment_mask ip.s0 (by norm_num) (by decide) (by decide)
  obtain ⟨hloopback, hunspecified⟩ := ip.special_iff
  have hembedded : isForbiddenIpv4 ip.lastV4 = true ↔
      ∃ c ∈ forbiddenBlocks4, c.Contains (ip.toNat % 2 ^ 32) := by
    rw [isForbiddenIpv4_iff, ip.lastV4_toNat, hlow]
  rw [exists_block6_iff, ← hembedded, h121, h118, h120, ← hmulticast, ← hlinkLocal,
    ← huniqueLocal, ← hloopback, ← hunspecified, ← ip.mapped_iff, ← ip.compatible_iff]
  have hapart : ip.s5 = 0xffff → ip.s5 ≠ 0 := by
    intro h
    rw [h]
    decide
  unfold isForbiddenIpv6 Ipv6Addr.toIpv4Mapped Ipv6Addr.isMulticast
  simp only [Bool.if_true_left, Bool.or_eq_true, decide_eq_true_eq]
  by_cases hmapped : ip.s0 = 0 ∧ ip.s1 = 0 ∧ ip.s2 = 0 ∧ ip.s3 = 0 ∧ ip.s4 = 0 ∧ ip.s5 = 0xffff
  · have hcompatible :
        ¬(ip.s0 = 0 ∧ ip.s1 = 0 ∧ ip.s2 = 0 ∧ ip.s3 = 0 ∧ ip.s4 = 0 ∧ ip.s5 = 0) :=
      fun h => hapart hmapped.2.2.2.2.2 h.2.2.2.2.2
    simp only [iff_true_intro hmapped, iff_false_intro hcompatible, true_and, false_and, or_false,
      if_true]
    exact Iff.of_eq (by ac_rfl)
  · by_cases hcompatible :
        ip.s0 = 0 ∧ ip.s1 = 0 ∧ ip.s2 = 0 ∧ ip.s3 = 0 ∧ ip.s4 = 0 ∧ ip.s5 = 0
    · simp only [iff_false_intro hmapped, iff_true_intro hcompatible, true_and, false_and,
        false_or, if_true, if_false]
      exact Iff.of_eq (by ac_rfl)
    · simp only [iff_false_intro hmapped, iff_false_intro hcompatible, false_and, or_false,
        if_false, Bool.false_eq_true]
      exact Iff.of_eq (by ac_rfl)

/-- `is_forbidden_ip` decides membership in the blocks. -/
theorem isForbiddenIp_iff {ip : IpAddr} : isForbiddenIp ip = true ↔ InForbiddenBlock ip := by
  cases ip with
  | v4 ip => exact isForbiddenIpv4_iff
  | v6 ip => exact isForbiddenIpv6_iff

end AgentExchange.Net
