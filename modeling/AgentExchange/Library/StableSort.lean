import Mathlib.Data.List.Forall2
import Mathlib.Data.List.MinMax
import Mathlib.Order.Basic
import Mathlib.Tactic

/-!
# Stable sorting by a key

What a stable sort by a key returns, and that there is only one such list. Sorts of two
lists that stand for the same thing return lists that do.
-/
namespace AgentExchange.Library

variable {α β κ : Type*} [LinearOrder κ]

/-- `ys` is `xs` sorted by the key, and elements of one key keep their order. -/
structure IsStableSort (key : α → κ) (xs ys : List α) : Prop where
  perm : ys.Perm xs
  sorted : ys.Pairwise fun a b => key a ≤ key b
  stable : ∀ k, ys.filter (key · = k) = xs.filter (key · = k)

/-- A sorted list is determined by the elements it holds of each key, in their order. -/
theorem eq_of_sorted_of_filter_eq {key : α → κ} {xs ys : List α}
    (hx : xs.Pairwise fun a b => key a ≤ key b) (hy : ys.Pairwise fun a b => key a ≤ key b)
    (h : ∀ k, xs.filter (key · = k) = ys.filter (key · = k)) : xs = ys := by
  have hmem {a : α} {us vs : List α} (huv : us.filter (key · = key a) = vs.filter (key · = key a))
      (ha : a ∈ us) : a ∈ vs := by
    have : a ∈ us.filter (key · = key a) := by simp [ha]
    rw [huv] at this
    exact List.mem_of_mem_filter this
  induction xs generalizing ys with
  | nil =>
    refine (List.eq_nil_iff_forall_not_mem.mpr fun y hmemy => ?_).symm
    exact List.not_mem_nil (hmem (h (key y)).symm hmemy)
  | cons x xs ih =>
    cases ys with
    | nil => exact absurd (hmem (h (key x)) List.mem_cons_self) List.not_mem_nil
    | cons y ys =>
      have hle {u : α} {us : List α} (hs : (u :: us).Pairwise fun a b => key a ≤ key b) {v : α}
          (hv : v ∈ u :: us) : key u ≤ key v := by
        rcases List.mem_cons.mp hv with rfl | hv
        · exact le_rfl
        · exact List.rel_of_pairwise_cons hs hv
      have hkey : key x = key y := le_antisymm
        (hle hx (hmem (h (key y)).symm List.mem_cons_self))
        (hle hy (hmem (h (key x)) List.mem_cons_self))
      have hxy := h (key x)
      rw [List.filter_cons_of_pos (by simp), List.filter_cons_of_pos (by simp [hkey])] at hxy
      obtain rfl : x = y := (List.cons.inj hxy).1
      refine congrArg (x :: ·) (ih hx.of_cons hy.of_cons fun k => ?_)
      have hk := h k
      by_cases hxk : key x = k
      · rw [List.filter_cons_of_pos (by simpa using hxk),
          List.filter_cons_of_pos (by simpa using hxk)] at hk
        exact (List.cons.inj hk).2
      · rwa [List.filter_cons_of_neg (by simpa using hxk),
          List.filter_cons_of_neg (by simpa using hxk)] at hk

theorem IsStableSort.unique {key : α → κ} {xs ys zs : List α} (hy : IsStableSort key xs ys)
    (hz : IsStableSort key xs zs) : ys = zs :=
  eq_of_sorted_of_filter_eq hy.sorted hz.sorted fun k => (hy.stable k).trans (hz.stable k).symm

/-- Sorting by the order of the keys, written as the test whether the first may stay in front. -/
theorem isStableSort_mergeSort {key : α → κ} {le : α → α → Bool}
    (hle : ∀ a b, le a b = true ↔ key a ≤ key b) (xs : List α) :
    IsStableSort key xs (xs.mergeSort le) := by
  have htrans (a b c : α) (hab : le a b = true) (hbc : le b c = true) : le a c = true :=
    (hle a c).mpr (((hle a b).mp hab).trans ((hle b c).mp hbc))
  have htotal (a b : α) : (le a b || le b a) = true := by
    rw [Bool.or_eq_true, hle, hle]
    exact le_total _ _
  refine ⟨List.mergeSort_perm xs le, ?_, fun k => ?_⟩
  · exact (List.pairwise_mergeSort htrans htotal xs).imp (hle _ _).mp
  · have hsub : (xs.filter (key · = k)).Sublist (xs.mergeSort le) := by
      refine List.sublist_mergeSort htrans htotal ?_ List.filter_sublist
      refine List.pairwise_of_forall_mem_list fun a ha b hb => ?_
      rw [hle, show key a = k by simpa using List.of_mem_filter ha,
        show key b = k by simpa using List.of_mem_filter hb]
    have hsub' : (xs.filter (key · = k)).Sublist ((xs.mergeSort le).filter (key · = k)) := by
      simpa using hsub.filter (key · = k)
    refine (hsub'.eq_of_length ?_).symm
    exact ((List.mergeSort_perm xs le).filter _).length_eq.symm

/-- Sorts that compare alike keep lists alike. -/
theorem forall₂_mergeSort {R : α → β → Prop} {le : α → α → Bool} {le' : β → β → Bool}
    (hle : ∀ a b a' b', R a b → R a' b' → le a a' = le' b b') {xs : List α} {ys : List β}
    (h : List.Forall₂ R xs ys) : List.Forall₂ R (xs.mergeSort le) (ys.mergeSort le') := by
  have hlen := h.length_eq
  let zs := xs.zip ys
  have hfst : zs.map Prod.fst = xs := List.map_fst_zip hlen.le
  have hsnd : zs.map Prod.snd = ys := List.map_snd_zip hlen.ge
  have hR : ∀ p ∈ zs, R p.1 p.2 := fun p hp => (List.forall₂_iff_zip.mp h).2 hp
  have hxs : (zs.mergeSort fun p q => le p.1 q.1).map Prod.fst = xs.mergeSort le := by
    rw [List.map_mergeSort (s := le) fun _ _ _ _ => rfl, hfst]
  have hys : (zs.mergeSort fun p q => le p.1 q.1).map Prod.snd = ys.mergeSort le' := by
    rw [List.map_mergeSort (s := le') fun p hp q hq => hle _ _ _ _ (hR p hp) (hR q hq), hsnd]
  rw [← hxs, ← hys, List.forall₂_map_left_iff, List.forall₂_map_right_iff, List.forall₂_same]
  exact fun p hp => hR p (List.mem_mergeSort.mp hp)

theorem forall₂_find? {R : α → β → Prop} {p : α → Bool} {q : β → Bool}
    (hpq : ∀ a b, R a b → p a = q b) {xs : List α} {ys : List β} (h : List.Forall₂ R xs ys) :
    Option.Rel R (xs.find? p) (ys.find? q) := by
  induction h with
  | nil => exact .none
  | @cons x y xs ys hxy _ ih =>
    rw [List.find?_cons, List.find?_cons, ← hpq x y hxy]
    cases p x with
    | true => exact .some hxy
    | false => exact ih

/-! ## The first element -/

/-- The first of the elements whose key is the least one is what `argmin` finds. -/
theorem argmin_eq_of_head_filter {key : α → κ} {xs : List α} {k : κ} {x : α}
    (hle : ∀ a ∈ xs, k ≤ key a) (hx : (xs.filter (key · = k)).head? = some x) :
    xs.argmin key = some x := by
  induction xs with
  | nil => cases hx
  | cons a xs ih =>
    rw [List.argmin_cons]
    by_cases ha : key a = k
    · rw [List.filter_cons_of_pos (by simpa using ha)] at hx
      obtain rfl : a = x := by simpa using hx
      cases hc : xs.argmin key with
      | none => rfl
      | some c =>
        have hkc := hle c (List.mem_cons_of_mem _ (List.argmin_mem hc))
        simp [ha, hkc]
    · rw [List.filter_cons_of_neg (by simpa using ha)] at hx
      rw [ih (fun b hb => hle b (List.mem_cons_of_mem _ hb)) hx]
      have hxk : key x = k := by simpa using List.of_mem_filter (List.mem_of_mem_head? hx)
      have hlt : key x < key a := hxk ▸ lt_of_le_of_ne (hle a List.mem_cons_self) (Ne.symm ha)
      simp [hlt]

theorem IsStableSort.filter {key : α → κ} {xs ys : List α} (h : IsStableSort key xs ys)
    (p : α → Bool) : IsStableSort key (xs.filter p) (ys.filter p) where
  perm := h.perm.filter p
  sorted := h.sorted.filter p
  stable k := by
    rw [List.filter_filter, List.filter_filter]
    simp only [Bool.and_comm, ← List.filter_filter, h.stable k]

theorem IsStableSort.head?_eq_argmin {key : α → κ} {xs ys : List α} (h : IsStableSort key xs ys) :
    ys.head? = xs.argmin key := by
  cases ys with
  | nil =>
    obtain rfl : xs = [] := h.perm.symm.eq_nil
    rfl
  | cons y ys =>
    refine (argmin_eq_of_head_filter (k := key y) (fun a ha => ?_) ?_).symm
    · rcases List.mem_cons.mp (h.perm.symm.mem_iff.mp ha) with rfl | ha
      · exact le_rfl
      · exact List.rel_of_pairwise_cons h.sorted ha
    · rw [← h.stable, List.filter_cons_of_pos (by simp)]
      rfl

/-- The first element of a kind that a stable sort meets has the least key, and is the first of
those in the list that was sorted. -/
theorem IsStableSort.find?_eq_argmin {key : α → κ} {xs ys : List α} (h : IsStableSort key xs ys)
    (p : α → Bool) : ys.find? p = (xs.filter p).argmin key := by
  rw [← (h.filter p).head?_eq_argmin, List.head?_filter]

/-! ## Giving up the first of a sorted list -/

theorem IsStableSort.le_of_mem_take {key : α → κ} {xs ys : List α} (h : IsStableSort key xs ys)
    {n : ℕ} {a b : α} (ha : a ∈ ys.take n) (hb : b ∈ ys.drop n) : key a ≤ key b := by
  have hsorted := h.sorted
  rw [← List.take_append_drop n ys, List.pairwise_append] at hsorted
  exact hsorted.2.2 a ha b hb

omit [LinearOrder κ] in
/-- Where no name occurs twice, a list without the names of the first elements of a rearrangement
is the rest of the rearrangement. -/
theorem filter_notMem_take_perm [DecidableEq β] {name : α → β} {xs ys : List α}
    (hperm : ys.Perm xs) (hnodup : (xs.map name).Nodup) (n : ℕ) :
    (xs.filter fun a => name a ∉ (ys.take n).map name).Perm (ys.drop n) := by
  have hdisjoint : ∀ a ∈ ys.drop n, name a ∉ (ys.take n).map name := by
    intro a ha hmem
    have hys : ((ys.take n).map name ++ (ys.drop n).map name).Nodup := by
      rw [← List.map_append, List.take_append_drop]
      exact (hperm.map name).nodup_iff.mpr hnodup
    exact (List.nodup_append'.mp hys).2.2 hmem (List.mem_map_of_mem ha)
  have htake : (ys.take n).filter (fun a => name a ∉ (ys.take n).map name) = [] := by
    apply List.filter_eq_nil_iff.mpr
    intro a ha
    rw [decide_eq_true_eq, not_not]
    exact List.mem_map_of_mem ha
  have hdrop : (ys.drop n).filter (fun a => name a ∉ (ys.take n).map name) = ys.drop n := by
    apply List.filter_eq_self.mpr
    intro a ha
    exact decide_eq_true (hdisjoint a ha)
  calc
    xs.filter (fun a => name a ∉ (ys.take n).map name)
    _ |>.Perm (ys.filter fun a => name a ∉ (ys.take n).map name) := (hperm.filter _).symm
    _ = (ys.take n ++ ys.drop n).filter (fun a => name a ∉ (ys.take n).map name) := by
      rw [List.take_append_drop]
    _ = ys.drop n := by rw [List.filter_append, htake, hdrop, List.nil_append]

end AgentExchange.Library
