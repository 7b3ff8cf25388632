import Mathlib

/-!
# Separated text and decimal numerals

A text made of pieces joined by a separator determines its pieces as soon as no
piece contains the separator. Decimal numerals are injective and free of any
character that is neither a digit nor a sign. Both facts are stated over lists
of symbols, so they apply to characters and to bytes alike.
-/
namespace AgentExchange.Library

variable {α : Type*}

/-- `first`, then every further piece preceded by the separator. -/
def separated (sep : α) : List α → List (List α) → List α
  | first, [] => first
  | first, next :: rest => first ++ sep :: separated sep next rest

theorem append_sep_inj {sep : α} {a b s t : List α} (ha : sep ∉ a) (hb : sep ∉ b)
    (h : a ++ sep :: s = b ++ sep :: t) : a = b ∧ s = t := by
  induction a generalizing b with
  | nil =>
    cases b with
    | nil => exact ⟨rfl, by simpa using h⟩
    | cons y b =>
      have hy : sep = y := by simpa using (List.cons.inj h).1
      exact absurd (by simp [hy]) hb
  | cons x a ih =>
    cases b with
    | nil =>
      have hx : x = sep := by simpa using (List.cons.inj h).1
      exact absurd (by simp [hx]) ha
    | cons y b =>
      obtain ⟨hxy, hrest⟩ := List.cons.inj h
      obtain ⟨hab, hst⟩ := ih (fun m => ha (List.mem_cons_of_mem _ m))
        (fun m => hb (List.mem_cons_of_mem _ m)) hrest
      exact ⟨by rw [hxy, hab], hst⟩

theorem not_mem_of_eq_append_sep {sep : α} {a b t : List α} (ha : sep ∉ a)
    (h : a = b ++ sep :: t) : False := by
  subst h
  exact ha (by simp)

/-- Pieces free of the separator are recovered from the joined text. -/
theorem separated_inj {sep : α} {a b : List α} {as bs : List (List α)}
    (ha : ∀ x ∈ a :: as, sep ∉ x) (hb : ∀ x ∈ b :: bs, sep ∉ x)
    (h : separated sep a as = separated sep b bs) : a = b ∧ as = bs := by
  induction as generalizing a b bs with
  | nil =>
    cases bs with
    | nil => exact ⟨h, rfl⟩
    | cons d bs => exact (not_mem_of_eq_append_sep (ha a (by simp)) h).elim
  | cons c as ih =>
    cases bs with
    | nil => exact (not_mem_of_eq_append_sep (hb b (by simp)) h.symm).elim
    | cons d bs =>
      obtain ⟨hab, hrest⟩ := append_sep_inj (ha a (by simp)) (hb b (by simp)) h
      obtain ⟨hcd, htail⟩ := ih (fun x hx => ha x (List.mem_cons_of_mem _ hx))
        (fun x hx => hb x (List.mem_cons_of_mem _ hx)) hrest
      exact ⟨hab, by rw [hcd, htail]⟩

/-- Lines joined by a line feed, without a trailing one. -/
def lineText : String → List String → String
  | first, [] => first
  | first, next :: rest => first ++ "\n" ++ lineText next rest

theorem lineText_toList (first : String) (rest : List String) :
    (lineText first rest).toList = separated '\n' first.toList (rest.map String.toList) := by
  induction rest generalizing first with
  | nil => rfl
  | cons next rest ih => simp [lineText, separated, ih]

theorem lineText_inj {a b : String} {as bs : List String}
    (ha : ∀ x ∈ a :: as, '\n' ∉ x.toList) (hb : ∀ x ∈ b :: bs, '\n' ∉ x.toList)
    (h : lineText a as = lineText b bs) : a = b ∧ as = bs := by
  have hl : separated '\n' a.toList (as.map String.toList) =
      separated '\n' b.toList (bs.map String.toList) := by
    rw [← lineText_toList, ← lineText_toList, h]
  obtain ⟨hab, htail⟩ := separated_inj
    (by simpa using ha) (by simpa using hb) hl
  exact ⟨String.toList_inj.mp hab,
    List.map_injective_iff.mpr (fun _ _ => String.toList_inj.mp) htail⟩

/-- Decimal digits are the only characters of a natural numeral. -/
theorem isDigit_of_mem_natRepr {n : ℕ} {c : Char} (hc : c ∈ (Nat.repr n).toList) :
    c.isDigit = true := by
  rw [Nat.toList_repr] at hc
  exact Nat.isDigit_of_mem_toDigits (by decide) (by decide) hc

theorem isDigit_or_minus_of_mem_intRepr {i : ℤ} {c : Char} (hc : c ∈ (Int.repr i).toList) :
    c.isDigit = true ∨ c = '-' := by
  cases i with
  | ofNat m => exact Or.inl (isDigit_of_mem_natRepr hc)
  | negSucc m =>
    rw [show Int.repr (Int.negSucc m) = "-" ++ Nat.repr (m + 1) from rfl,
      String.toList_append, List.mem_append] at hc
    rcases hc with hc | hc
    · exact Or.inr (by simpa using hc)
    · exact Or.inl (isDigit_of_mem_natRepr hc)

theorem not_mem_natRepr {n : ℕ} {c : Char} (hc : c.isDigit = false) :
    c ∉ (Nat.repr n).toList := by
  intro hm
  simp [isDigit_of_mem_natRepr hm] at hc

theorem not_mem_intRepr {i : ℤ} {c : Char} (hc : c.isDigit = false) (hm : c ≠ '-') :
    c ∉ (Int.repr i).toList := by
  intro hmem
  rcases isDigit_or_minus_of_mem_intRepr hmem with h | h
  · simp [h] at hc
  · exact hm h

/-- A sequence of fallible steps succeeds exactly when each of them does. -/
theorem except_bind_eq_ok {ε β γ : Type} {x : Except ε β} {f : β → Except ε γ} {c : γ} :
    (x >>= f) = .ok c ↔ ∃ b, x = .ok b ∧ f b = .ok c := by
  cases x with
  | error e =>
    constructor
    · intro h
      cases h
    · rintro ⟨b, hb, -⟩
      cases hb
  | ok b =>
    constructor
    · intro h
      exact ⟨b, rfl, h⟩
    · rintro ⟨b', hb, hf⟩
      cases hb
      exact hf

theorem except_map_eq_ok {ε β γ : Type} {x : Except ε β} {f : β → γ} {c : γ} :
    x.map f = .ok c ↔ ∃ b, x = .ok b ∧ f b = c := by
  cases x <;> simp [Except.map]

theorem except_mapError_eq_ok {ε ε' β : Type} {x : Except ε β} {g : ε → ε'} {b : β} :
    x.mapError g = .ok b ↔ x = .ok b := by
  cases x <;> simp [Except.mapError]

/-- Go on only if the condition holds. -/
def check {ε : Type} (c : Prop) [Decidable c] (e : ε) : Except ε Unit :=
  if c then .ok () else .error e

theorem check_bind_eq_ok {ε β : Type} {c : Prop} [Decidable c] {e : ε} {f : Unit → Except ε β}
    {b : β} : (check c e >>= f) = .ok b ↔ c ∧ f () = .ok b := by
  unfold check
  split_ifs with h
  · simp only [h, true_and]
    rfl
  · constructor
    · intro hb
      cases hb
    · rintro ⟨hc, -⟩
      exact absurd hc h

/-- Unwrap an optional value, or fail. -/
def orError {ε β : Type} (x : Option β) (e : ε) : Except ε β :=
  match x with
  | some b => .ok b
  | none => .error e

theorem orError_eq_ok {ε β : Type} {x : Option β} {e : ε} {b : β} :
    orError x e = .ok b ↔ x = some b := by
  cases x <;> simp [orError]

end AgentExchange.Library
