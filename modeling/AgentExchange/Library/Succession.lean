import Mathlib.Tactic

/-!
# Records that supersede one another

Records with a window of validity, in the order in which they were added. Each
record but the last was superseded by the next one and stays valid for a period of
grace after that; the last record's window is open.
-/
namespace AgentExchange.Library

/-- Where the window of a record starts and ends, and the period of grace. -/
structure Succession (α T : Type*) where
  start : α → T
  stop : α → Option T
  grace : T

namespace Succession

variable {α T : Type*} [Add T] (S : Succession α T)

/-- The first record was superseded when the second one started. -/
def Follows (x y : α) : Prop := S.stop x = some (S.start y + S.grace)

def Valid [Preorder T] (t : T) (x : α) : Prop := S.start x ≤ t ∧ ∀ u, S.stop x = some u → t < u

/-- `y` stands right after `x`. -/
def Successor (xs : List α) (x y : α) : Prop := ∃ before after, xs = before ++ x :: y :: after

/-- One chain of records, the last of which is open. -/
structure Linear (xs : List α) : Prop where
  chain : xs.IsChain S.Follows
  last : ∀ x ∈ xs.getLast?, S.stop x = none

variable {S} {xs init : List α} {x y : α}

theorem linear_singleton (hx : S.stop x = none) : S.Linear [x] :=
  ⟨.singleton x, by simpa using hx⟩

theorem Linear.follows (h : S.Linear xs) (hs : Successor xs x y) : S.Follows x y := by
  obtain ⟨before, after, rfl⟩ := hs
  exact (List.isChain_append_cons_cons.mp h.chain).2.1

/-- A record is the last one or was superseded by the next. -/
theorem Linear.last_or_successor (h : S.Linear xs) (hx : x ∈ xs) :
    (xs.getLast? = some x ∧ S.stop x = none) ∨ ∃ y, Successor xs x y ∧ S.Follows x y := by
  obtain ⟨before, after, rfl⟩ := List.append_of_mem hx
  cases after with
  | nil =>
    have hlast : (before ++ [x]).getLast? = some x := by simp
    exact Or.inl ⟨hlast, h.last x hlast⟩
  | cons y after =>
    have hs : Successor (before ++ x :: y :: after) x y := ⟨before, after, rfl⟩
    exact Or.inr ⟨y, hs, h.follows hs⟩

/-- Only the last record is open. -/
theorem Linear.getLast_of_open (h : S.Linear xs) (hx : x ∈ xs) (hopen : S.stop x = none) :
    xs.getLast? = some x := by
  rcases h.last_or_successor hx with ⟨hlast, -⟩ | ⟨y, -, hy⟩
  · exact hlast
  · rw [Follows, hopen] at hy
    cases hy

theorem Linear.closed_of_mem_init (h : S.Linear (init ++ [x])) (hy : y ∈ init) :
    ∃ u, S.stop y = some u := by
  obtain ⟨before, after, rfl⟩ := List.append_of_mem hy
  rw [List.append_assoc, List.cons_append] at h
  cases hafter : after ++ [x] with
  | nil => simp at hafter
  | cons z rest =>
    rw [hafter] at h
    exact ⟨_, h.follows ⟨before, rest, rfl⟩⟩

/-- The last record is closed with the period of grace and its successor added. -/
theorem Linear.supersede {x' : α} (h : S.Linear (init ++ [x])) (hstart : S.start x' = S.start x)
    (hx' : S.Follows x' y) (hy : S.stop y = none) : S.Linear (init ++ [x', y]) := by
  constructor
  · rw [List.isChain_append]
    refine ⟨h.chain.left_of_append, List.isChain_cons_cons.mpr ⟨hx', .singleton y⟩, ?_⟩
    intro z hz w hw
    obtain rfl : x' = w := by simpa using hw
    have hzx := (List.isChain_append.mp h.chain).2.2 z hz x (by simp)
    rw [Follows, hstart]
    exact hzx
  · simpa using hy

/-- From the last start on, the valid records are the open one and those superseded less than the
period of grace ago. -/
theorem Linear.valid_iff [Preorder T] (h : S.Linear xs) (hx : x ∈ xs) {t : T} (ht : S.start x ≤ t) :
    S.Valid t x ↔ S.stop x = none ∨ ∃ y, Successor xs x y ∧ t < S.start y + S.grace := by
  constructor
  · rintro ⟨-, hstop⟩
    rcases h.last_or_successor hx with ⟨-, hopen⟩ | ⟨y, hs, hy⟩
    · exact Or.inl hopen
    · exact Or.inr ⟨y, hs, hstop _ hy⟩
  · rintro (hopen | ⟨y, hs, hlt⟩)
    · exact ⟨ht, by simp [hopen]⟩
    · refine ⟨ht, fun u hu => ?_⟩
      rw [h.follows hs] at hu
      cases hu
      exact hlt

end Succession

end AgentExchange.Library
