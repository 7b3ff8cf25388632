import Mathlib.Tactic
import Mathlib.Data.List.Infix

/-!
# Printers that can be read back

A printer writes a value as a list of symbols. It is used inside a larger text,
so injectivity is not enough: what is written must also end at a place the reader
can find. `Apart` says that of one value, relative to the symbols that may follow
it; the closing rules below give it for coded strings and for separated lists.
-/
namespace AgentExchange.Library

variable {α γ : Type*}

/-- No code word is a prefix of another one. -/
def PrefixFree (code : α → List γ) : Prop := ∀ a b, code a <+: code b → a = b

theorem PrefixFree.append_inj {code : α → List γ} (hcode : PrefixFree code) {a b : α}
    {s t : List γ} (h : code a ++ s = code b ++ t) : a = b ∧ s = t := by
  have ha : code a <+: code b ++ t := ⟨s, h⟩
  have hb : code b <+: code b ++ t := ⟨t, rfl⟩
  have hab : a = b := by
    rcases List.prefix_or_prefix_of_prefix ha hb with hp | hp
    · exact hcode a b hp
    · exact (hcode b a hp).symm
  subst hab
  exact ⟨rfl, List.append_cancel_left h⟩

/-- A coded string up to its terminator, where no code word starts with the terminator. -/
theorem PrefixFree.flatMap_inj {code : α → List γ} (hcode : PrefixFree code) {stop : γ}
    (hstop : ∀ a, ∃ c rest, code a = c :: rest ∧ c ≠ stop) {xs ys : List α} {s t : List γ}
    (h : xs.flatMap code ++ stop :: s = ys.flatMap code ++ stop :: t) : xs = ys ∧ s = t := by
  induction xs generalizing ys with
  | nil =>
    cases ys with
    | nil => exact ⟨rfl, by simpa using h⟩
    | cons y ys =>
      obtain ⟨c, rest, hc, hne⟩ := hstop y
      rw [List.flatMap_nil, List.flatMap_cons, hc] at h
      exact (hne (List.cons.inj h).1.symm).elim
  | cons x xs ih =>
    cases ys with
    | nil =>
      obtain ⟨c, rest, hc, hne⟩ := hstop x
      rw [List.flatMap_nil, List.flatMap_cons, hc] at h
      exact (hne (List.cons.inj h).1).elim
    | cons y ys =>
      rw [List.flatMap_cons, List.flatMap_cons, List.append_assoc, List.append_assoc] at h
      obtain ⟨hxy, hrest⟩ := hcode.append_inj h
      obtain ⟨hxs, hst⟩ := ih hrest
      exact ⟨by rw [hxy, hxs], hst⟩

/-- A rest that is empty or begins with a symbol that ends what came before it. -/
def Delimited (stops : γ → Prop) (rest : List γ) : Prop := ∀ c ∈ rest.head?, stops c

theorem delimited_cons {stops : γ → Prop} {c : γ} {rest : List γ} (h : stops c) :
    Delimited stops (c :: rest) := by
  intro d hd
  obtain rfl : c = d := by simpa using hd
  exact h

/-- Words without a stopping symbol are recovered before a delimited rest. -/
theorem word_append_inj {stops : γ → Prop} {a b s t : List γ} (ha : ∀ c ∈ a, ¬stops c)
    (hb : ∀ c ∈ b, ¬stops c) (hs : Delimited stops s) (ht : Delimited stops t)
    (h : a ++ s = b ++ t) : a = b ∧ s = t := by
  induction a generalizing b with
  | nil =>
    cases b with
    | nil => exact ⟨rfl, h⟩
    | cons y b =>
      rw [List.nil_append] at h
      exact (hb y (by simp) (hs y (by simp [h]))).elim
  | cons x a ih =>
    cases b with
    | nil =>
      rw [List.nil_append] at h
      exact (ha x (by simp) (ht x (by simp [← h]))).elim
    | cons y b =>
      obtain ⟨hxy, hrest⟩ := List.cons.inj h
      obtain ⟨hab, hst⟩ := ih (fun c hc => ha c (List.mem_cons_of_mem _ hc))
        (fun c hc => hb c (List.mem_cons_of_mem _ hc)) hrest
      exact ⟨by rw [hxy, hab], hst⟩

/-- What `print` writes for `a` can be told from what it writes for any value, before any
two delimited rests. -/
def Apart (stops : γ → Prop) (print : α → List γ) (a : α) : Prop :=
  ∀ b s t, Delimited stops s → Delimited stops t → print a ++ s = print b ++ t → a = b ∧ s = t

/-- Pieces joined by a separator. -/
def joined (sep : γ) : List (List γ) → List γ
  | [] => []
  | first :: rest => first ++ rest.flatMap fun piece => sep :: piece

section Lists

variable {stops : γ → Prop} {print : α → List γ} {sep close : γ}

theorem delimited_tail (hsep : stops sep) (hclose : stops close) (xs : List (List γ))
    (s : List γ) : Delimited stops ((xs.flatMap fun piece => sep :: piece) ++ close :: s) := by
  cases xs with
  | nil => exact delimited_cons hclose
  | cons x xs => exact delimited_cons hsep

theorem tail_append_inj (hsep : stops sep) (hclose : stops close) (hne : sep ≠ close)
    {xs ys : List α} {s t : List γ} (hxs : ∀ x ∈ xs, Apart stops print x)
    (h : ((xs.map print).flatMap fun piece => sep :: piece) ++ close :: s =
      ((ys.map print).flatMap fun piece => sep :: piece) ++ close :: t) : xs = ys ∧ s = t := by
  induction xs generalizing ys with
  | nil =>
    cases ys with
    | nil => exact ⟨rfl, by simpa using h⟩
    | cons y ys => exact (hne (List.cons.inj h).1.symm).elim
  | cons x xs ih =>
    cases ys with
    | nil => exact (hne (List.cons.inj h).1).elim
    | cons y ys =>
      simp only [List.map_cons, List.flatMap_cons, List.cons_append, List.append_assoc,
        List.cons.injEq, true_and] at h
      obtain ⟨hxy, hrest⟩ := hxs x (by simp) y _ _ (delimited_tail hsep hclose _ s)
        (delimited_tail hsep hclose _ t) h
      obtain ⟨htail, hst⟩ := ih (fun z hz => hxs z (List.mem_cons_of_mem _ hz)) hrest
      exact ⟨by rw [hxy, htail], hst⟩

/-- A bracketed list is recovered when its elements are and none of them starts with the
closing bracket. -/
theorem joined_append_inj (hsep : stops sep) (hclose : stops close) (hne : sep ≠ close)
    (hprint : ∀ a, ∃ c rest, print a = c :: rest ∧ c ≠ close)
    {xs ys : List α} {s t : List γ} (hxs : ∀ x ∈ xs, Apart stops print x)
    (h : joined sep (xs.map print) ++ close :: s = joined sep (ys.map print) ++ close :: t) :
    xs = ys ∧ s = t := by
  cases xs with
  | nil =>
    cases ys with
    | nil => exact ⟨rfl, by simpa [joined] using h⟩
    | cons y ys =>
      obtain ⟨c, rest, hc, hcne⟩ := hprint y
      simp only [joined, List.map_cons, List.map_nil, hc] at h
      exact (hcne (List.cons.inj h).1.symm).elim
  | cons x xs =>
    cases ys with
    | nil =>
      obtain ⟨c, rest, hc, hcne⟩ := hprint x
      simp only [joined, List.map_cons, List.map_nil, hc] at h
      exact (hcne (List.cons.inj h).1).elim
    | cons y ys =>
      simp only [joined, List.map_cons, List.append_assoc] at h
      obtain ⟨hxy, hrest⟩ := hxs x (by simp) y _ _ (delimited_tail hsep hclose _ s)
        (delimited_tail hsep hclose _ t) h
      obtain ⟨htail, hst⟩ := tail_append_inj hsep hclose hne
        (fun z hz => hxs z (List.mem_cons_of_mem _ hz)) hrest
      exact ⟨by rw [hxy, htail], hst⟩

end Lists

end AgentExchange.Library
