import Mathlib.Tactic

/-!
# Delimited texts

A reader that cuts a text at the first occurrence of a delimiter. It recovers what the writer put
before the delimiter where the delimiter occurs in no other place. Letters that the delimiter does
not have keep its occurrences apart, so they are looked for piece by piece.
-/
namespace AgentExchange.Library.Framing

variable {α : Type*} {d : List α}

/-! ## Occurrences -/

theorem not_prefix_cons {x : α} {xs : List α} (hd : d ≠ []) (hx : x ∉ d) : ¬d <+: x :: xs := by
  cases d with
  | nil => exact absurd rfl hd
  | cons y ys =>
    intro h
    obtain ⟨rfl, -⟩ := List.cons_prefix_cons.mp h
    exact hx List.mem_cons_self

/-- Letters in front that the delimiter does not have make no occurrence. -/
theorem infix_append_of_disjoint (xs ys : List α) (hd : d ≠ []) (h : ∀ x ∈ xs, x ∉ d) :
    d <:+: xs ++ ys ↔ d <:+: ys := by
  induction xs with
  | nil => rfl
  | cons x xs ih =>
    have hx := h x List.mem_cons_self
    rw [List.cons_append, List.infix_cons_iff, ih fun y hy => h y (List.mem_cons_of_mem _ hy)]
    exact or_iff_right (not_prefix_cons hd hx)

theorem prefix_append_cons {x : α} {xs ys : List α} (hx : x ∉ d) :
    d <+: xs ++ x :: ys ↔ d <+: xs := by
  constructor
  · intro h
    rcases Nat.le_total d.length xs.length with hlen | hlen
    · exact List.prefix_of_prefix_length_le h (List.prefix_append _ _) hlen
    · obtain ⟨rest, rfl⟩ := List.prefix_of_prefix_length_le (List.prefix_append xs _) h hlen
      cases rest with
      | nil => simp
      | cons y rest =>
        obtain ⟨rfl, -⟩ := List.cons_prefix_cons.mp ((List.prefix_append_right_inj xs).mp h)
        simp at hx
  · exact fun h => h.trans (List.prefix_append _ _)

/-- A letter that the delimiter does not have parts its occurrences. -/
theorem infix_append_cons {x : α} {xs ys : List α} (hd : d ≠ []) (hx : x ∉ d) :
    d <:+: xs ++ x :: ys ↔ d <:+: xs ∨ d <:+: ys := by
  induction xs with
  | nil =>
    have hnil : ¬d <:+: [] := fun h => hd (List.infix_nil.mp h)
    rw [List.nil_append, List.infix_cons_iff]
    simp only [not_prefix_cons hd hx, hnil]
  | cons y xs ih =>
    rw [List.cons_append, List.infix_cons_iff, ih, List.infix_cons_iff, ← List.cons_append,
      prefix_append_cons hx, or_assoc]

/-- A text without one of the letters of the delimiter. -/
theorem not_infix_of_not_mem {x : α} {xs : List α} (hx : x ∈ d) (h : x ∉ xs) : ¬d <:+: xs :=
  fun hin => h (hin.subset hx)

theorem not_infix_dropLast (hd : d ≠ []) : ¬d <:+: d.dropLast := by
  intro h
  have hlength := h.length_le
  have hpos := List.length_pos_iff.mpr hd
  rw [List.length_dropLast] at hlength
  omega

/-! ## Cutting at the first occurrence -/

variable [DecidableEq α]

/-- What stands before the first occurrence of the delimiter, and what stands after it. -/
def cutAt (d : List α) : List α → Option (List α × List α)
  | [] => if d = [] then some ([], []) else none
  | x :: xs =>
    if d <+: x :: xs then some ([], (x :: xs).drop d.length)
    else (cutAt d xs).map fun p => (x :: p.1, p.2)

theorem cutAt_eq_some (hd : d ≠ []) {xs before after : List α} :
    cutAt d xs = some (before, after) ↔
      xs = before ++ d ++ after ∧ ¬d <:+: before ++ d.dropLast := by
  induction xs generalizing before with
  | nil => simp [cutAt, hd]
  | cons x xs ih =>
    rw [cutAt]
    split_ifs with hprefix
    · obtain ⟨rest, hrest⟩ := hprefix
      rw [← hrest, List.drop_left]
      constructor
      · rintro ⟨rfl, rfl⟩
        exact ⟨rfl, not_infix_dropLast hd⟩
      · rintro ⟨heq, hearlier⟩
        cases before with
        | nil => simpa using heq
        | cons y before =>
          -- an occurrence at the start is an earlier one
          refine absurd (List.IsPrefix.isInfix ?_) hearlier
          refine List.prefix_of_prefix_length_le (List.prefix_append d rest) ?_ ?_
          · rw [heq, List.append_assoc, List.prefix_append_right_inj]
            exact (List.dropLast_prefix d).trans (List.prefix_append _ _)
          · simp only [List.length_append, List.length_cons, List.length_dropLast]
            omega
    · cases before with
      | nil =>
        have hne : x :: xs ≠ d ++ after := by
          intro heq
          exact hprefix (heq ▸ List.prefix_append _ _)
        simp [hne]
      | cons y before =>
        have hstart : d <+: x :: before ++ d.dropLast → d <+: x :: (before ++ d ++ after) := by
          intro h
          refine h.trans ?_
          rw [List.append_assoc, List.cons_append, List.prefix_cons_inj,
            List.prefix_append_right_inj]
          exact (List.dropLast_prefix d).trans (List.prefix_append _ _)
        rw [Option.map_eq_some_iff]
        constructor
        · rintro ⟨⟨before', after'⟩, hcut, heq⟩
          cases heq
          obtain ⟨rfl, hearlier⟩ := ih.mp hcut
          refine ⟨rfl, ?_⟩
          rw [List.cons_append, List.infix_cons_iff]
          rintro (h | h)
          · exact hprefix (hstart h)
          · exact hearlier h
        · rintro ⟨heq, hearlier⟩
          cases heq
          exact ⟨(before, after), ih.mpr ⟨rfl, fun h => hearlier (h.trans (List.infix_cons
            List.infix_rfl))⟩, rfl⟩

/-- A delimiter at the end is the first one where no shorter part of the text has one. -/
theorem cutAt_eq_some_nil (hd : d ≠ []) {before : List α} :
    cutAt d (before ++ d) = some (before, []) ↔ ¬d <:+: before ++ d.dropLast := by
  simp [cutAt_eq_some hd]

omit [DecidableEq α] in
theorem no_earlier_iff (hd : d ≠ []) {before : List α} :
    (∀ xs, xs <+: before ++ d → xs ≠ before ++ d → ¬d <:+: xs) ↔
      ¬d <:+: before ++ d.dropLast := by
  have hlast : (before ++ d).dropLast = before ++ d.dropLast :=
    List.dropLast_append_of_ne_nil hd
  have hpos := List.length_pos_iff.mpr hd
  constructor
  · intro h
    refine h _ (hlast ▸ List.dropLast_prefix _) ?_
    intro heq
    have hlength := congrArg List.length heq
    simp only [List.length_append, List.length_dropLast] at hlength
    omega
  · intro h xs hxs hne hin
    refine h (hin.trans (List.IsPrefix.isInfix ?_))
    rw [← hlast]
    refine List.prefix_of_prefix_length_le hxs (List.dropLast_prefix _) ?_
    have hlt : xs.length < (before ++ d).length :=
      lt_of_le_of_ne hxs.length_le fun hlength => hne (hxs.eq_of_length hlength)
    rw [List.length_dropLast]
    omega

end AgentExchange.Library.Framing
