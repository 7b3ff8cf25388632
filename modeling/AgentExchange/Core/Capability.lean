import AgentExchange.Core.Text

/-!
# Capability bits

The features an agent card advertises: a set of bits, written on the wire as an
array of names. Names a reader does not know are skipped.
-/
namespace AgentExchange

inductive Capability where
  | wireV2
  | jwsAgentCard
  | cardEtag
  | a2aBridge
  | etereCitizenTrust
  | safeHttp
  | clockSkew60s
  | streamingTransfer
  | deferredDecision
  deriving DecidableEq

namespace Capability

def all : List Capability :=
  [.wireV2, .jwsAgentCard, .cardEtag, .a2aBridge, .etereCitizenTrust, .safeHttp, .clockSkew60s,
    .streamingTransfer, .deferredDecision]

def asBit : Capability → UInt64
  | .wireV2 => 0
  | .jwsAgentCard => 1
  | .cardEtag => 2
  | .a2aBridge => 3
  | .etereCitizenTrust => 4
  | .safeHttp => 5
  | .clockSkew60s => 6
  | .streamingTransfer => 7
  | .deferredDecision => 8

def asStr : Capability → String
  | .wireV2 => "wire-v2"
  | .jwsAgentCard => "jws-agent-card"
  | .cardEtag => "card-etag"
  | .a2aBridge => "a2a-bridge"
  | .etereCitizenTrust => "etere-citizen-trust"
  | .safeHttp => "safe-http"
  | .clockSkew60s => "clock-skew-60s"
  | .streamingTransfer => "streaming-transfer"
  | .deferredDecision => "deferred-decision"

def parse (s : String) : Option Capability := all.find? fun c => c.asStr = s

end Capability

structure CapabilitySet where
  bits : UInt64
  deriving DecidableEq

namespace CapabilitySet

def empty : CapabilitySet := ⟨0⟩

/-- `CapabilitySet::with`. -/
def withCap (set : CapabilitySet) (cap : Capability) : CapabilitySet :=
  ⟨set.bits ||| (1 <<< cap.asBit)⟩

def has (set : CapabilitySet) (cap : Capability) : Bool := set.bits &&& (1 <<< cap.asBit) ≠ 0

def toStringArray (set : CapabilitySet) : List String :=
  (Capability.all.filter fun c => set.has c).map Capability.asStr

def fromStringArray (items : List String) : CapabilitySet :=
  items.foldl (fun set item =>
    match Capability.parse item with
    | some cap => set.withCap cap
    | none => set) empty

theorem asBit_inj {c d : Capability} (h : c.asBit = d.asBit) : c = d := by
  cases c <;> cases d <;> first | rfl | cases h

/-- A set holds a capability if the number's bit is set. -/
theorem has_iff_testBit (set : CapabilitySet) (cap : Capability) :
    set.has cap = true ↔ set.bits.toNat.testBit cap.asBit.toNat = true := by
  have hbit : (1 <<< cap.asBit : UInt64).toNat = 2 ^ cap.asBit.toNat := by
    cases cap <;> rfl
  unfold has
  rw [decide_eq_true_eq, ne_eq, ← UInt64.toNat_inj, UInt64.toNat_and, hbit, Nat.and_two_pow]
  cases set.bits.toNat.testBit cap.asBit.toNat <;> simp

theorem has_withCap (set : CapabilitySet) (c cap : Capability) :
    (set.withCap c).has cap = true ↔ set.has cap = true ∨ c = cap := by
  have hbit : (1 <<< c.asBit : UInt64).toNat = 2 ^ c.asBit.toNat := by
    cases c <;> rfl
  rw [has_iff_testBit, has_iff_testBit, withCap, UInt64.toNat_or, hbit, Nat.testBit_or,
    Bool.or_eq_true, Nat.testBit_two_pow, decide_eq_true_eq, UInt64.toNat_inj]
  constructor
  · rintro (h | h)
    · exact Or.inl h
    · exact Or.inr (asBit_inj h)
  · rintro (h | rfl)
    · exact Or.inl h
    · exact Or.inr rfl

theorem parse_eq_some {s : String} {cap : Capability} :
    Capability.parse s = some cap ↔ cap.asStr = s := by
  constructor
  · intro h
    simpa using List.find?_some h
  · rintro rfl
    cases cap <;> decide

/-- The set built from an array of names holds just the capabilities it names. -/
theorem has_fromStringArray (items : List String) (cap : Capability) :
    (fromStringArray items).has cap = true ↔ cap.asStr ∈ items := by
  have hfold (set : CapabilitySet) :
      (items.foldl (fun set item => match Capability.parse item with
        | some c => set.withCap c
        | none => set) set).has cap = true ↔ set.has cap = true ∨ cap.asStr ∈ items := by
    induction items generalizing set with
    | nil => simp
    | cons item items ih =>
      rw [List.foldl_cons, ih, List.mem_cons]
      cases hparse : Capability.parse item with
      | none =>
        have hne : cap.asStr ≠ item := by
          intro h
          rw [parse_eq_some.mpr h] at hparse
          cases hparse
        simp [hne]
      | some c =>
        have hc : c = cap ↔ cap.asStr = item := by
          rw [← parse_eq_some, hparse, Option.some_inj]
        rw [has_withCap, hc, or_assoc]
  rw [fromStringArray, hfold]
  simp [empty, has]

end CapabilitySet

end AgentExchange
