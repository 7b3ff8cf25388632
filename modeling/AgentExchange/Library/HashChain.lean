import Mathlib.Tactic

/-!
# Hash chains

Entries carry the hash of the entry before them and their own hash; a local check
says that an entry's own hash was computed from its content. Nothing is assumed
about the hash beyond what a proof asks for: `Binding` says that equal hashes of
checked entries come from entries that agree and point to the same predecessor.
-/
namespace AgentExchange.Library

/-- How an entry is linked, and the local check on its own hash. -/
structure ChainFormat (ε η : Type) where
  prev : ε → η
  hash : ε → η
  Checked : ε → Prop

namespace ChainFormat

variable {ε η : Type} (C : ChainFormat ε η)

/-- Every entry passes its check and points to the entry before it; the first to `g`. -/
def Linked : η → List ε → Prop
  | _, [] => True
  | g, e :: es => C.prev e = g ∧ C.Checked e ∧ Linked (C.hash e) es

/-- The hash of the last entry, or `g` when there is none. -/
def head : η → List ε → η
  | g, [] => g
  | _, e :: es => head (C.hash e) es

@[simp] theorem head_append_singleton (g : η) (es : List ε) (e : ε) :
    C.head g (es ++ [e]) = C.hash e := by
  induction es generalizing g with
  | nil => rfl
  | cons d es ih => exact ih (C.hash d)

theorem linked_append_singleton (g : η) (es : List ε) (e : ε) :
    C.Linked g (es ++ [e]) ↔ C.Linked g es ∧ C.prev e = C.head g es ∧ C.Checked e := by
  induction es generalizing g with
  | nil => simp [Linked, head]
  | cons d es ih =>
    simp only [List.cons_append, Linked, head, ih]
    tauto

theorem Linked.take {C : ChainFormat ε η} {g : η} {es : List ε} (h : C.Linked g es) (n : ℕ) :
    C.Linked g (es.take n) := by
  induction es generalizing g n with
  | nil => simpa using h
  | cons e es ih =>
    cases n with
    | zero => trivial
    | succ n => exact ⟨h.1, h.2.1, ih h.2.2 n⟩

/-- Equal hashes of checked entries come from agreeing entries with equal predecessors. -/
def Binding (R : ε → ε → Prop) : Prop :=
  ∀ e e', C.Checked e → C.Checked e' → C.hash e = C.hash e' → R e e' ∧ C.prev e = C.prev e'

variable {C} {R : ε → ε → Prop} {g : η}

/-- Two chains of one length that end in the same hash agree entry by entry. -/
theorem Linked.agree {xs ys : List ε} (hR : C.Binding R) (hxs : C.Linked g xs)
    (hys : C.Linked g ys) (hlen : xs.length = ys.length) (hhead : C.head g xs = C.head g ys) :
    List.Forall₂ R xs ys := by
  induction xs using List.reverseRecOn generalizing ys with
  | nil =>
    obtain rfl : ys = [] := List.eq_nil_of_length_eq_zero hlen.symm
    exact .nil
  | append_singleton xs x ih =>
    rcases List.eq_nil_or_concat' ys with rfl | ⟨ys, y, rfl⟩
    · simp at hlen
    · rw [linked_append_singleton] at hxs hys
      rw [head_append_singleton, head_append_singleton] at hhead
      obtain ⟨hxy, hprev⟩ := hR x y hxs.2.2 hys.2.2 hhead
      rw [hxs.2.1, hys.2.1] at hprev
      have hrest := ih hxs.1 hys.1 (by simpa using hlen) hprev
      exact List.rel_append hrest (.cons hxy .nil)

/-- The length is committed too when the start of the chain is no entry's hash. -/
theorem Linked.length_eq {xs ys : List ε} (hR : C.Binding R)
    (hstart : ∀ e, C.Checked e → C.hash e ≠ g) (hxs : C.Linked g xs) (hys : C.Linked g ys)
    (hhead : C.head g xs = C.head g ys) : xs.length = ys.length := by
  induction xs using List.reverseRecOn generalizing ys with
  | nil =>
    rcases List.eq_nil_or_concat' ys with rfl | ⟨ys, y, rfl⟩
    · rfl
    · rw [linked_append_singleton] at hys
      rw [head_append_singleton] at hhead
      exact (hstart y hys.2.2 hhead.symm).elim
  | append_singleton xs x ih =>
    rcases List.eq_nil_or_concat' ys with rfl | ⟨ys, y, rfl⟩
    · rw [linked_append_singleton] at hxs
      rw [head_append_singleton] at hhead
      exact (hstart x hxs.2.2 hhead).elim
    · rw [linked_append_singleton] at hxs hys
      rw [head_append_singleton, head_append_singleton] at hhead
      obtain ⟨-, hprev⟩ := hR x y hxs.2.2 hys.2.2 hhead
      rw [hxs.2.1, hys.2.1] at hprev
      simpa using ih hxs.1 hys.1 hprev

/-- Replacing entries by ones with the same links, hashes and checks keeps the chain. -/
theorem Linked.congr {xs ys : List ε} (h : List.Forall₂ R xs ys)
    (hR : ∀ x y, R x y → C.prev x = C.prev y ∧ C.hash x = C.hash y ∧ (C.Checked x → C.Checked y))
    (hxs : C.Linked g xs) : C.Linked g ys ∧ C.head g ys = C.head g xs := by
  induction h generalizing g with
  | nil => exact ⟨trivial, rfl⟩
  | @cons x y xs ys hxy _ ih =>
    obtain ⟨hprev, hhash, hcheck⟩ := hR x y hxy
    obtain ⟨hx, hchecked, hrest⟩ := hxs
    obtain ⟨hlinked, hhead⟩ := ih hrest
    rw [hhash] at hlinked hhead
    exact ⟨⟨by rw [← hprev, hx], hcheck hchecked, hlinked⟩, by rw [head, head, hhash, hhead]⟩

end ChainFormat

end AgentExchange.Library
