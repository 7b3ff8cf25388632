import Mathlib.Data.List.DropRight
import Mathlib.Tactic

/-!
# Debouncing

A debouncer reads one outcome after the other and reports whether its subject is down.
`m` failures in a row take it down, `k` successes in a row bring it up again. It
counts only the outcomes that speak against what it reports. `down_iff_tripped` says
which sequences of outcomes leave it down.
-/
namespace AgentExchange.Library

/-- `run` outcomes in a row, the last ones, speak against `down`. -/
structure Debouncer where
  down : Bool
  run : ℕ
  deriving DecidableEq

namespace Debouncer

variable {m k : ℕ} {w : List Bool}

def threshold (m k : ℕ) (down : Bool) : ℕ := if down then k else m

/-- A success is `true`, so an outcome speaks against `down` if it equals it. -/
def step (m k : ℕ) (d : Debouncer) (ok : Bool) : Debouncer :=
  if ok = d.down then
    if threshold m k d.down ≤ d.run + 1 then ⟨!d.down, 0⟩ else ⟨d.down, d.run + 1⟩
  else ⟨d.down, 0⟩

def after (m k : ℕ) (d : Debouncer) (w : List Bool) : Debouncer := w.foldl (step m k) d

/-- `m` failures in a row occur, and no `k` successes in a row after the last of these blocks. -/
def Tripped (m k : ℕ) (w : List Bool) : Prop :=
  ∃ u v, w = u ++ List.replicate m false ++ v ∧
    (∀ u' v', w = u' ++ List.replicate m false ++ v' → u'.length ≤ u.length) ∧
    ¬ List.replicate k true <:+: v

@[simp] theorem after_nil (d : Debouncer) : after m k d [] = d := rfl

theorem after_append (d : Debouncer) (w w' : List Bool) :
    after m k d (w ++ w') = after m k (after m k d w) w' := List.foldl_append

/-! ## How long the last run of an outcome is -/

def trailing (b : Bool) (w : List Bool) : ℕ := (w.rtakeWhile (· = b)).length

@[simp] theorem trailing_nil (b : Bool) : trailing b [] = 0 := rfl

theorem trailing_snoc (b ok : Bool) (w : List Bool) :
    trailing b (w ++ [ok]) = if ok = b then trailing b w + 1 else 0 := by
  unfold trailing
  rw [List.rtakeWhile_concat]
  by_cases h : ok = b <;> simp [h]

theorem replicate_suffix_snoc {α : Type*} {n : ℕ} {x y : α} {w : List α} :
    List.replicate (n + 1) x <:+ w ++ [y] ↔ y = x ∧ List.replicate n x <:+ w := by
  rw [List.replicate_succ', List.suffix_concat_iff]
  constructor
  · rintro (h | ⟨t, ht, hw⟩)
    · simp at h
    · obtain ⟨rfl, h⟩ := List.append_inj' ht rfl
      exact ⟨by simpa using h.symm, hw⟩
  · rintro ⟨rfl, h⟩
    exact Or.inr ⟨_, rfl, h⟩

theorem replicate_suffix_iff {b : Bool} {n : ℕ} :
    List.replicate n b <:+ w ↔ n ≤ trailing b w := by
  induction w using List.reverseRecOn generalizing n with
  | nil => cases n <;> simp
  | append_singleton w ok ih =>
    cases n with
    | zero => simp
    | succ n =>
      rw [replicate_suffix_snoc, trailing_snoc, ih]
      split_ifs with h <;> simp [h]

/-! ## Which sequences trip the debouncer -/

/-- What follows the last block is the end of what follows any block. -/
theorem tripped_iff_exists : Tripped m k w ↔
    ∃ u v, w = u ++ List.replicate m false ++ v ∧ ¬ List.replicate k true <:+: v := by
  constructor
  · rintro ⟨u, v, hw, -, hv⟩
    exact ⟨u, v, hw, hv⟩
  · rintro ⟨u, v, hw, hv⟩
    let Starts (n : ℕ) : Prop :=
      ∃ u' v', w = u' ++ List.replicate m false ++ v' ∧ u'.length = n
    have hbound : ∀ n, Starts n → n ≤ w.length := by
      rintro n ⟨u', v', hw', rfl⟩
      simp [hw']
    classical
    obtain ⟨u', v', hw', hlen⟩ := Nat.findGreatest_spec (P := Starts) (hbound _ ⟨u, v, hw, rfl⟩)
      ⟨u, v, hw, rfl⟩
    have hlast (u₁ v₁) (h : w = u₁ ++ List.replicate m false ++ v₁) : u₁.length ≤ u'.length := by
      rw [hlen]
      exact Nat.le_findGreatest (hbound _ ⟨u₁, v₁, h, rfl⟩) ⟨u₁, v₁, h, rfl⟩
    refine ⟨u', v', hw', hlast, fun hblock => hv (hblock.trans ?_)⟩
    have hv' : v' <:+ w := ⟨_, hw'.symm⟩
    refine (List.suffix_of_suffix_length_le hv' ⟨_, hw.symm⟩ ?_).isInfix
    have hlength := congrArg List.length (hw.symm.trans hw')
    have := hlast u v hw
    simp only [List.length_append, List.length_replicate] at hlength
    omega

theorem not_tripped_nil (hm : 0 < m) : ¬ Tripped m k [] := by
  rintro ⟨u, v, h, -⟩
  have := congrArg List.length h
  simp only [List.length_nil, List.length_append, List.length_replicate] at this
  omega

theorem infix_snoc_iff {α : Type*} {xs w : List α} {y : α} :
    xs <:+: w ++ [y] ↔ xs <:+ w ++ [y] ∨ xs <:+: w := by
  rw [← List.reverse_infix, ← List.reverse_prefix, ← @List.reverse_infix _ xs w,
    List.reverse_append]
  exact List.infix_cons_iff

/-- A success ends it once it is the last of `k`. -/
theorem tripped_snoc_true (hm : 0 < m) :
    Tripped m k (w ++ [true]) ↔ Tripped m k w ∧ ¬ k ≤ trailing true (w ++ [true]) := by
  rw [tripped_iff_exists, tripped_iff_exists, ← replicate_suffix_iff]
  obtain ⟨m, rfl⟩ := Nat.exists_eq_succ_of_ne_zero hm.ne'
  constructor
  · rintro ⟨u, v, hw, hv⟩
    rcases List.eq_nil_or_concat v with rfl | ⟨v, y, rfl⟩
    · rw [List.append_nil, List.replicate_succ', ← List.append_assoc] at hw
      simpa using (List.append_inj' hw rfl).2
    · rw [List.concat_eq_append] at hw hv
      rw [← List.append_assoc] at hw
      obtain ⟨rfl, hy⟩ := List.append_inj' hw rfl
      cases hy
      refine ⟨⟨u, v, rfl, fun h => hv (infix_snoc_iff.mpr (Or.inr h))⟩, fun hk => ?_⟩
      rcases Nat.lt_or_ge (v.length + 1) k with hlong | hshort
      · -- the `k` successes would reach into the block of failures
        have hfalse : false :: (v ++ [true]) <:+ List.replicate k true :=
          List.suffix_of_suffix_length_le
            ⟨u ++ List.replicate m false, by simp [List.replicate_succ']⟩ hk (by simpa using hlong)
        have hmem : false ∈ List.replicate k true := hfalse.subset (by simp)
        simp at hmem
      · have hsuffix := List.suffix_append (u ++ List.replicate (m + 1) false) (v ++ [true])
        rw [← List.append_assoc] at hsuffix
        exact hv (List.suffix_of_suffix_length_le hk hsuffix (by simpa using hshort)).isInfix
  · rintro ⟨⟨u, v, hw, hv⟩, hk⟩
    refine ⟨u, v ++ [true], by rw [hw]; simp, fun h => ?_⟩
    rcases infix_snoc_iff.mp h with h | h
    · exact hk (h.trans ⟨u ++ List.replicate (m + 1) false, by rw [hw]; simp⟩)
    · exact hv h

/-- A failure trips it once it is the last of `m`, and never ends it. -/
theorem tripped_snoc_false (hk : 0 < k) :
    Tripped m k (w ++ [false]) ↔ Tripped m k w ∨ m ≤ trailing false (w ++ [false]) := by
  obtain ⟨k, rfl⟩ := Nat.exists_eq_succ_of_ne_zero hk.ne'
  have hblock (v : List Bool) :
      List.replicate (k + 1) true <:+: v ++ [false] ↔ List.replicate (k + 1) true <:+: v := by
    simp [infix_snoc_iff, replicate_suffix_snoc]
  rw [tripped_iff_exists, tripped_iff_exists, ← replicate_suffix_iff]
  constructor
  · rintro ⟨u, v, hw, hv⟩
    rcases List.eq_nil_or_concat v with rfl | ⟨v, y, rfl⟩
    · exact Or.inr ⟨u, by simpa using hw.symm⟩
    · rw [List.concat_eq_append] at hw hv
      rw [← List.append_assoc] at hw
      obtain ⟨rfl, hy⟩ := List.append_inj' hw rfl
      cases hy
      exact Or.inl ⟨u, v, rfl, (hblock v).not.mp hv⟩
  · rintro (⟨u, v, hw, hv⟩ | ⟨u, hu⟩)
    · exact ⟨u, v ++ [false], by rw [hw]; simp, (hblock v).not.mpr hv⟩
    · exact ⟨u, [], by simpa using hu.symm, by simp⟩

/-! ## What the debouncer reports -/

/-- The counter is the length of the run that speaks against what is reported. -/
structure Tracks (m k : ℕ) (d : Debouncer) (w : List Bool) : Prop where
  down_iff : d.down = true ↔ Tripped m k w
  run_eq : d.run = trailing d.down w

theorem Tracks.step (hm : 0 < m) (hk : 0 < k) {d : Debouncer} (h : Tracks m k d w) (ok : Bool) :
    Tracks m k (step m k d ok) (w ++ [ok]) := by
  obtain ⟨down, run⟩ := d
  obtain ⟨hdown, hrun⟩ := h
  dsimp only at hdown hrun
  subst hrun
  cases ok with
  | true =>
    have htripped := tripped_snoc_true (k := k) (w := w) hm
    rw [trailing_snoc, if_pos rfl] at htripped
    cases down with
    | true =>
      by_cases hk : k ≤ trailing true w + 1
      · constructor <;> simp [Debouncer.step, threshold, htripped, hk, trailing_snoc]
      · constructor <;> simp [Debouncer.step, threshold, htripped, hk, trailing_snoc, ← hdown]
    | false => constructor <;> simp [Debouncer.step, htripped, trailing_snoc, ← hdown]
  | false =>
    have htripped := tripped_snoc_false (m := m) (w := w) hk
    rw [trailing_snoc, if_pos rfl] at htripped
    cases down with
    | true => constructor <;> simp [Debouncer.step, htripped, trailing_snoc, ← hdown]
    | false =>
      by_cases hm : m ≤ trailing false w + 1
      · constructor <;> simp [Debouncer.step, threshold, htripped, hm, trailing_snoc]
      · constructor <;> simp [Debouncer.step, threshold, htripped, hm, trailing_snoc, ← hdown]

/-- A new debouncer is down after exactly the sequences that trip it. -/
theorem tracks_after (hm : 0 < m) (hk : 0 < k) (w : List Bool) :
    Tracks m k (after m k ⟨false, 0⟩ w) w := by
  induction w using List.reverseRecOn with
  | nil => exact ⟨by simp [not_tripped_nil hm], rfl⟩
  | append_singleton w ok ih =>
    rw [after_append]
    exact ih.step hm hk ok

/-! ## From any state -/

/-- Outcomes that agree with what is reported change nothing. -/
theorem after_replicate_of_eq {d : Debouncer} {b : Bool} (h : d.down = !b) (n : ℕ) :
    (after m k d (List.replicate n b)).down = !b := by
  induction n generalizing d with
  | zero => exact h
  | succ n ih =>
    rw [List.replicate_succ]
    exact ih (by simp [step, h])

/-- As many outcomes in a row as the threshold asks for decide, whatever the state. -/
theorem after_replicate (d : Debouncer) (b : Bool) {n : ℕ} (hpos : 0 < n)
    (hn : threshold m k b ≤ d.run + n) : (after m k d (List.replicate n b)).down = !b := by
  induction n generalizing d with
  | zero => omega
  | succ n ih =>
    by_cases hd : d.down = b
    · have hstep : after m k d (List.replicate (n + 1) b) =
          after m k (step m k d b) (List.replicate n b) := by
        rw [List.replicate_succ]
        rfl
      rw [hstep]
      by_cases hlast : threshold m k b ≤ d.run + 1
      · exact after_replicate_of_eq (by simp [step, hd, hlast]) n
      · refine ih _ (by omega) ?_
        simp only [step, hd, if_true, if_neg hlast]
        omega
    · exact after_replicate_of_eq (Bool.eq_not_of_ne hd) (n + 1)

end Debouncer

end AgentExchange.Library
