import Mathlib

/-!
# Trimming

What satisfies a predicate is cut off at the end of a list, or at both ends. What is left ends
there in something else, and a list that does so is what is left of it and any padding.
-/
namespace AgentExchange.Library.Trim

variable {α : Type} {p q : α → Bool} {xs core a b : List α}

def trimEnd (p : α → Bool) (xs : List α) : List α := (xs.reverse.dropWhile p).reverse

def trim (p : α → Bool) (xs : List α) : List α := trimEnd p (xs.dropWhile p)

def StartsOutside (p : α → Bool) (xs : List α) : Prop := ∀ x ∈ xs.head?, p x = false

def EndsOutside (p : α → Bool) (xs : List α) : Prop := ∀ x ∈ xs.getLast?, p x = false

/-- A list between two runs of padding. -/
def Padded (p : α → Bool) (core xs : List α) : Prop :=
  ∃ a b, xs = a ++ core ++ b ∧ (∀ x ∈ a, p x = true) ∧ ∀ x ∈ b, p x = true

theorem endsOutside_iff : EndsOutside p xs ↔ StartsOutside p xs.reverse := by
  rw [EndsOutside, StartsOutside, List.head?_reverse]

theorem dropWhile_eq_self (h : StartsOutside p xs) : xs.dropWhile p = xs := by
  cases xs with
  | nil => rfl
  | cons x xs => simp [h x rfl]

theorem startsOutside_dropWhile (xs : List α) : StartsOutside p (xs.dropWhile p) := by
  induction xs with
  | nil => simp [StartsOutside]
  | cons x xs ih =>
    cases hx : p x with
    | true => simpa [hx] using ih
    | false => simp [StartsOutside, hx]

theorem trimEnd_eq_self (h : EndsOutside p xs) : trimEnd p xs = xs := by
  rw [trimEnd, dropWhile_eq_self (endsOutside_iff.mp h), List.reverse_reverse]

theorem trimEnd_append (hb : ∀ x ∈ b, p x = true) : trimEnd p (xs ++ b) = trimEnd p xs := by
  rw [trimEnd, List.reverse_append, List.dropWhile_append_of_pos (by simpa using hb), trimEnd]

theorem endsOutside_trimEnd (xs : List α) : EndsOutside p (trimEnd p xs) := by
  rw [endsOutside_iff, trimEnd, List.reverse_reverse]
  exact startsOutside_dropWhile _

/-- What is cut off at the end. -/
theorem exists_trimEnd (p : α → Bool) (xs : List α) :
    ∃ b, xs = trimEnd p xs ++ b ∧ ∀ x ∈ b, p x = true := by
  refine ⟨(xs.reverse.takeWhile p).reverse, ?_, ?_⟩
  · rw [trimEnd, ← List.reverse_append, List.takeWhile_append_dropWhile, List.reverse_reverse]
  · intro x hx
    exact List.mem_takeWhile_imp (List.mem_reverse.mp hx)

theorem startsOutside_of_append (h : StartsOutside p (xs ++ b)) : StartsOutside p xs := by
  cases xs with
  | nil => simp [StartsOutside]
  | cons x xs => exact h

theorem startsOutside_append (hne : xs ≠ []) (h : StartsOutside p xs) :
    StartsOutside p (xs ++ b) := by
  obtain ⟨x, xs, rfl⟩ := List.exists_cons_of_ne_nil hne
  exact h

theorem startsOutside_trimEnd (h : StartsOutside p xs) : StartsOutside p (trimEnd q xs) := by
  obtain ⟨b, hxs, -⟩ := exists_trimEnd q xs
  rw [hxs] at h
  exact startsOutside_of_append h

theorem startsOutside_trim (xs : List α) : StartsOutside p (trim p xs) :=
  startsOutside_trimEnd (startsOutside_dropWhile xs)

theorem endsOutside_trim (xs : List α) : EndsOutside p (trim p xs) := endsOutside_trimEnd _

/-- What is cut off. -/
theorem padded_trim (p : α → Bool) (xs : List α) : Padded p (trim p xs) xs := by
  obtain ⟨b, hb, hall⟩ := exists_trimEnd p (xs.dropWhile p)
  refine ⟨xs.takeWhile p, b, ?_, ?_, hall⟩
  · rw [List.append_assoc, trim, ← hb, List.takeWhile_append_dropWhile]
  · intro x hx
    exact List.mem_takeWhile_imp hx

/-- What ends outside ends the cut. -/
theorem trimEnd_append_left (h : EndsOutside p xs) (b : List α) :
    trimEnd p (xs ++ b) = xs ++ trimEnd p b := by
  have hxs := dropWhile_eq_self (endsOutside_iff.mp h)
  rw [trimEnd, List.reverse_append, List.dropWhile_append]
  split_ifs with hempty
  · rw [hxs, List.reverse_reverse, trimEnd, List.isEmpty_iff.mp hempty, List.reverse_nil,
      List.append_nil]
  · rw [List.reverse_append, List.reverse_reverse, trimEnd]

/-- Padding is cut off. -/
theorem trim_of_padded (hne : core ≠ []) (hstart : StartsOutside p core)
    (hend : EndsOutside p core) (h : Padded p core xs) : trim p xs = core := by
  obtain ⟨a, b, rfl, ha, hb⟩ := h
  rw [trim, List.append_assoc, List.dropWhile_append_of_pos ha,
    dropWhile_eq_self (startsOutside_append hne hstart), trimEnd_append hb, trimEnd_eq_self hend]

theorem trim_eq_iff (hne : core ≠ []) (hstart : StartsOutside p core)
    (hend : EndsOutside p core) : trim p xs = core ↔ Padded p core xs := by
  constructor
  · intro h
    rw [← h]
    exact padded_trim p xs
  · exact trim_of_padded hne hstart hend

/-- A list that starts outside is found at one place behind padding. -/
theorem padding_unique {a' b' : List α} (hne : core ≠ []) (hp : StartsOutside p core)
    (hq : StartsOutside q core) (ha : ∀ x ∈ a, p x = true) (ha' : ∀ x ∈ a', q x = true)
    (h : a ++ core ++ b = a' ++ core ++ b') : a = a' ∧ b = b' := by
  obtain ⟨c, core, rfl⟩ := List.exists_cons_of_ne_nil hne
  have hc : (p c || q c) = false := by simp [hp c rfl, hq c rfl]
  have htake (r s : List α) (hr : ∀ x ∈ r, (p x || q x) = true) :
      (r ++ c :: core ++ s).takeWhile (fun x => p x || q x) = r := by
    rw [List.append_assoc, List.takeWhile_append_of_pos hr, List.cons_append]
    simp [hc]
  have hleft := htake a b fun x hx => by simp [ha x hx]
  have hright := htake a' b' fun x hx => by simp [ha' x hx]
  rw [h, hright] at hleft
  subst hleft
  exact ⟨rfl, List.append_cancel_left h⟩

end AgentExchange.Library.Trim
