import Mathlib

/-!
# Regular expressions

Patterns that are tested against a whole text: fixed texts, runs of a character class with
bounds on their length, sequences and alternatives.
-/
namespace AgentExchange.Library

inductive Regex (α : Type) where
  | text (s : List α)
  /-- between `lo` and `hi` letters of a class -/
  | run (p : α → Bool) (lo : ℕ) (hi : Option ℕ)
  | seq (r t : Regex α)
  | alt (r t : Regex α)

namespace Regex

variable {α : Type}

/-- The language of a pattern. -/
def Matches : Regex α → List α → Prop
  | text t, s => s = t
  | run p lo hi, s => lo ≤ s.length ∧ (∀ n ∈ hi, s.length ≤ n) ∧ ∀ c ∈ s, p c = true
  | seq r t, s => ∃ a b, s = a ++ b ∧ r.Matches a ∧ t.Matches b
  | alt r t, s => r.Matches s ∨ t.Matches s

theorem matches_text (s : List α) : (text s).Matches s := rfl

theorem Matches.append {r t : Regex α} {a b : List α} (hr : r.Matches a) (ht : t.Matches b) :
    (seq r t).Matches (a ++ b) := ⟨a, b, rfl, hr, ht⟩

variable [DecidableEq α]

/-- Every place to cut is tried. -/
def test : Regex α → List α → Bool
  | text t, s => s = t
  | run p lo hi, s => lo ≤ s.length && hi.all (s.length ≤ ·) && s.all p
  | seq r t, s => (List.range (s.length + 1)).any fun i => r.test (s.take i) && t.test (s.drop i)
  | alt r t, s => r.test s || t.test s

/-- The test decides the language. -/
theorem test_iff {r : Regex α} {s : List α} : r.test s = true ↔ r.Matches s := by
  induction r generalizing s with
  | text t => simp [test, Matches]
  | run p lo hi => cases hi <;> simp [test, Matches, and_assoc]
  | seq r t ihr iht =>
    simp only [test, Matches, List.any_eq_true, List.mem_range, Bool.and_eq_true, ihr, iht]
    constructor
    · intro h
      obtain ⟨i, -, hr, ht⟩ := h
      exact ⟨s.take i, s.drop i, (List.take_append_drop i s).symm, hr, ht⟩
    · intro h
      obtain ⟨a, b, rfl, hr, ht⟩ := h
      refine ⟨a.length, ?_, ?_, ?_⟩
      · rw [List.length_append]
        omega
      · rwa [List.take_left]
      · rwa [List.drop_left]
  | alt r t ihr iht => simp [test, Matches, ihr, iht]

end Regex

end AgentExchange.Library
