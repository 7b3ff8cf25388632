import AgentExchange.Core.Deserialize
import AgentExchange.Core.Wire

/-!
# The representation of agent ids

An `AgentId` wraps a string. `AgentId::new` and `FromStr` check it; the derived deserialiser
takes any JSON string. The canonical encoders check an id again before they put it into a line.
-/
namespace AgentExchange

open Library

namespace AgentId

/-- `FromStr`. -/
def fromStr (s : String) : Except Error AgentId := AgentId.new s

/-- `#[derive(Deserialize)]` on a newtype: what the field is read from. -/
def deserialize (v : Json) : Except Json.DeError AgentId := (Json.readString v).map AgentId.mk

/-- Printable and no space. -/
def isGraphic (c : Char) : Bool := 0x21 ≤ c.toNat && c.toNat ≤ 0x7e

theorem isGraphic_iff {c : Char} :
    isGraphic c = true ↔ isAscii c = true ∧ isAsciiControl c = false ∧ isWhitespace c = false := by
  simp only [isGraphic, isAscii, isAsciiControl, isWhitespace, Bool.and_eq_true, decide_eq_true_eq,
    Bool.or_eq_false_iff, decide_eq_false_iff_not, beq_eq_false_iff_ne, Bool.and_eq_false_iff]
  omega

/-- What every id is to be. -/
structure Valid (id : AgentId) : Prop where
  nonempty : id.asStr ≠ ""
  length_le : id.asStr.utf8ByteSize ≤ 256
  graphic : ∀ c ∈ id.asStr.toList, isGraphic c = true
  colon : ':' ∈ id.asStr.toList

theorem valid_iff {id : AgentId} : id.Valid ↔ validateAgentId id.asStr = .ok () := by
  rw [validateAgentId_eq_ok]
  constructor
  · intro h
    exact ⟨h.nonempty, h.length_le, fun c hc => isGraphic_iff.mp (h.graphic c hc), h.colon⟩
  · intro h
    obtain ⟨hne, hlen, hall, hcolon⟩ := h
    exact ⟨hne, hlen, fun c hc => isGraphic_iff.mpr (hall c hc), hcolon⟩

theorem new_of_graphic {s : String} (hgraphic : ∀ c ∈ s.toList, isGraphic c = true)
    (hlen : s.toList.length ≤ 256) (hcolon : ':' ∈ s.toList) : AgentId.new s = .ok ⟨s⟩ := by
  apply new_eq_ok_iff.mpr
  refine ⟨?_, rfl⟩
  apply validateAgentId_eq_ok.mpr
  have hclear : ∀ c ∈ s.toList, isAscii c = true ∧ isAsciiControl c = false ∧
      isWhitespace c = false := fun c hc => isGraphic_iff.mp (hgraphic c hc)
  refine ⟨?_, ?_, hclear, hcolon⟩
  · rintro rfl
    cases hcolon
  · rw [utf8ByteSize_of_isAscii fun c hc => (hclear c hc).1]
    exact hlen

theorem valid_of_new {s : String} {id : AgentId} (h : AgentId.new s = .ok id) : id.Valid := by
  obtain ⟨hs, rfl⟩ := new_eq_ok_iff.mp h
  exact valid_iff.mpr hs

/-- The encoders take the id, whichever field it is for, and it stays on its line. -/
structure EncoderSafe (id : AgentId) : Prop where
  accepted : ∀ field, Wire.validateAsciiLine id.asStr field = .ok ()
  one_line : '\n' ∉ id.asStr.toList ∧ '\r' ∉ id.asStr.toList

theorem Valid.not_mem {id : AgentId} (h : id.Valid) {c : Char} (hc : isGraphic c = false) :
    c ∉ id.asStr.toList := by
  intro hmem
  rw [h.graphic c hmem] at hc
  cases hc

theorem Valid.encoderSafe {id : AgentId} (h : id.Valid) : id.EncoderSafe := by
  constructor
  · intro field
    have hempty : ¬id.asStr.isEmpty = true := by simpa using h.nonempty
    rw [Wire.validateAsciiLine, if_neg hempty]
    split
    · rename_i c i hbad
      obtain ⟨hc, hmem⟩ := firstBadChar_eq_some hbad
      have hascii := (isGraphic_iff.mp (h.graphic c hmem)).1
      simp only [hascii, Bool.not_true, Bool.false_or, Bool.or_eq_true, beq_iff_eq] at hc
      rcases hc with (rfl | rfl) | rfl
      · exact absurd hmem (h.not_mem rfl)
      · exact absurd hmem (h.not_mem rfl)
      · exact absurd hmem (h.not_mem rfl)
    · rfl
  · constructor
    · exact h.not_mem rfl
    · exact h.not_mem rfl

/-! ## Every way to get an id -/

inductive Source where
  | new (s : String)
  | fromStr (s : String)
  | json (v : Json)

def Source.construct : Source → Option AgentId
  | .new s => (AgentId.new s).toOption
  | .fromStr s => (AgentId.fromStr s).toOption
  | .json v => (deserialize v).toOption

/-- Only JSON brings a text that nothing has checked. -/
def Source.Checked : Source → Prop
  | .new _ | .fromStr _ => True
  | .json v => ∃ s, v = .str s ∧ validateAgentId s = .ok ()

theorem toOption_eq_some {ε α : Type} {x : Except ε α} {a : α} :
    x.toOption = some a ↔ x = .ok a := by
  cases x <;> simp [Except.toOption]

theorem deserialize_eq_ok {v : Json} {id : AgentId} :
    deserialize v = .ok id ↔ v = .str id.asStr := by
  unfold deserialize Json.readString
  cases v with
  | str s =>
    constructor
    · intro h
      cases h
      rfl
    · intro h
      cases h
      rfl
  | null | bool _ | num _ | arr _ | obj _ => simp [Except.map]

/-- An id is what it is to be, and fit for the encoders, just where its source is checked. -/
theorem valid_iff_checked (source : Source) (id : AgentId) (h : source.construct = some id) :
    id.Valid ∧ id.EncoderSafe ↔ source.Checked := by
  have hvalid (hv : id.Valid) : id.Valid ∧ id.EncoderSafe := ⟨hv, hv.encoderSafe⟩
  cases source with
  | new s => exact iff_of_true (hvalid (valid_of_new (toOption_eq_some.mp h))) trivial
  | fromStr s => exact iff_of_true (hvalid (valid_of_new (toOption_eq_some.mp h))) trivial
  | json v =>
    have hv := deserialize_eq_ok.mp (toOption_eq_some.mp h)
    subst hv
    constructor
    · intro hid
      exact ⟨id.asStr, rfl, valid_iff.mp hid.1⟩
    · intro hchecked
      obtain ⟨s, hs, hok⟩ := hchecked
      cases hs
      exact hvalid (valid_iff.mpr hok)

theorem valid_iff_checked_json :
    AgentId.Valid ⟨"spize:acme/alice:a4f8b2"⟩ := by
  have hchecked : (Source.json (.str "spize:acme/alice:a4f8b2")).Checked :=
    ⟨_, rfl, by decide⟩
  exact ((valid_iff_checked (.json (.str "spize:acme/alice:a4f8b2")) ⟨"spize:acme/alice:a4f8b2"⟩
    rfl).mpr hchecked).1

/-- The text of a JSON string with a line break in it becomes an id, which the encoders refuse. -/
theorem deserialize_unchecked :
    ¬∀ (source : Source) (id : AgentId), source.construct = some id → id.Valid ∧ id.EncoderSafe := by
  intro h
  have hid := (h (.json (.str "alice\n")) ⟨"alice\n"⟩ rfl).2
  exact absurd hid.one_line.1 (by decide)

end AgentId

end AgentExchange
