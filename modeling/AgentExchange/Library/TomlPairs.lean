import AgentExchange.Library.TomlLaws

/-!
# Lines of a TOML document that hold a pair

What a reader makes of a line with a key and an integer or a string. A text that is put between
quotes as it is comes back only if it is plain, unless the string it opens takes up lines that
follow.
-/
namespace AgentExchange.Library.Toml

/-! ## Integers -/

theorem digit_of_isDigit {c : Char} (h : c.isDigit = true) :
    digit 10 c = some (c.toNat - '0'.toNat) := by
  have hbounds : 48 ≤ c.toNat ∧ c.toNat ≤ 57 := by
    simp only [Char.isDigit, Bool.and_eq_true, decide_eq_true_eq] at h
    exact h
  have hlt : c.toNat - '0'.toNat < 10 := by
    change c.toNat - 48 < 10
    omega
  simp only [digit, h, if_true, hlt]

theorem number_digits {cs : List Char} (h : ∀ c ∈ cs, c.isDigit = true) (v : ℕ) :
    number 10 true v cs = some (Nat.ofDigitChars 10 cs v) := by
  induction cs generalizing v with
  | nil => rfl
  | cons c cs ih =>
    have hc := h c List.mem_cons_self
    have hne : c ≠ '_' := by
      rintro rfl
      cases hc
    rw [number, if_neg hne, digit_of_isDigit hc, Nat.ofDigitChars_cons]
    exact ih (fun x hx => h x (List.mem_cons_of_mem c hx)) _

/-- A number is written without a zero in front. -/
theorem head_toDigits {n : ℕ} (h : 0 < n) : (Nat.toDigits 10 n).head? ≠ some '0' := by
  induction n using Nat.strongRecOn with
  | ind n ih =>
    by_cases hn : n < 10
    · rw [Nat.toDigits_of_lt_base hn]
      have hall : ∀ n < 10, 0 < n → [n.digitChar].head? ≠ some '0' := by decide
      exact hall n hn h
    · rw [Nat.toDigits_of_base_le (by decide) (not_lt.mp hn),
        List.head?_append_of_ne_nil _ Nat.toDigits_ne_nil]
      exact ih (n / 10) (by omega) (by omega)

theorem decimal_toDigits (n : ℕ) : decimal (Nat.toDigits 10 n) = some n := by
  have hdigits : ∀ c ∈ Nat.toDigits 10 n, c.isDigit = true := fun c =>
    Nat.isDigit_of_mem_toDigits (by decide) (by decide)
  have hzero : ¬(1 < (Nat.toDigits 10 n).length && (Nat.toDigits 10 n).head? = some '0') := by
    intro hzero
    obtain ⟨hlength, hhead⟩ : 1 < (Nat.toDigits 10 n).length ∧
        (Nat.toDigits 10 n).head? = some '0' := by simpa using hzero
    rcases Nat.eq_zero_or_pos n with rfl | hn
    · exact absurd hlength (by decide)
    · exact head_toDigits hn hhead
  have hvalue : Nat.ofDigitChars 10 (Nat.toDigits 10 n) 0 = n := Nat.ofDigitChars_ten_toDigits
  rw [decimal, if_neg hzero]
  cases hn : Nat.toDigits 10 n with
  | nil => exact absurd hn Nat.toDigits_ne_nil
  | cons c cs =>
    rw [hn] at hdigits hvalue
    have hstart : number 10 false 0 (c :: cs) = number 10 true 0 (c :: cs) := by
      have hne : c ≠ '_' := by
        rintro rfl
        cases hdigits '_' List.mem_cons_self
      rw [number, number, if_neg hne, if_neg hne]
    rw [hstart, number_digits hdigits, hvalue]

theorem integer_toDigits {n : ℕ} (h : n < 2 ^ 63) : integer (Nat.toDigits 10 n) = some (n : ℤ) := by
  have hdigits : ∀ c ∈ Nat.toDigits 10 n, c.isDigit = true := fun c =>
    Nat.isDigit_of_mem_toDigits (by decide) (by decide)
  have hdecimal := decimal_toDigits n
  have hread : ∀ {cs : List Char} {m : Option ℕ}, (∀ c ∈ cs, c.isDigit = true) → decimal cs = m →
      integer cs = (m.map Int.ofNat).filter fun n => -2 ^ 63 ≤ n && n < 2 ^ 63 := by
    rintro cs m hcs rfl
    unfold integer
    dsimp only
    split
    · cases hcs 'x' (by simp)
    · cases hcs 'o' (by simp)
    · cases hcs 'b' (by simp)
    · cases hcs '-' (by simp)
    · unfold unsigned
      split
      · cases hcs '+' (by simp)
      · cases hcs '-' (by simp)
      · rfl
  rw [hread hdigits hdecimal]
  have hrange : (-2 ^ 63 ≤ (n : ℤ) && (n : ℤ) < 2 ^ 63) = true := by
    simp only [Bool.and_eq_true, decide_eq_true_eq]
    omega
  exact Option.filter_some_pos hrange

theorem isScalarChar_of_isDigit {c : Char} (h : c.isDigit = true) : isScalarChar c = true := by
  simp [isScalarChar, isBare, Char.isAlphanum, h]

theorem scalar_toDigits {n : ℕ} (h : n < 2 ^ 63) (rest : List Char) :
    scalar (Nat.toDigits 10 n ++ '\n' :: rest) = some (.integer n, '\n' :: rest) := by
  have hscalar : ∀ c ∈ Nat.toDigits 10 n, isScalarChar c = true := fun c hc =>
    isScalarChar_of_isDigit (Nat.isDigit_of_mem_toDigits (by decide) (by decide) hc)
  have htoken : (Nat.toDigits 10 n ++ '\n' :: rest).takeWhile isScalarChar = Nat.toDigits 10 n := by
    rw [List.takeWhile_append_of_pos hscalar]
    exact List.append_nil _
  have hrest : (Nat.toDigits 10 n ++ '\n' :: rest).dropWhile isScalarChar = '\n' :: rest :=
    List.dropWhile_append_of_pos hscalar
  have hword : word (Nat.toDigits 10 n) = some (.integer n) := by
    have hnot (w : List Char) (hw : ∃ c ∈ w, c.isDigit = false) : Nat.toDigits 10 n ≠ w := by
      rintro rfl
      obtain ⟨c, hc, hdigit⟩ := hw
      rw [Nat.isDigit_of_mem_toDigits (by decide) (by decide) hc] at hdigit
      cases hdigit
    rw [word, if_neg (hnot _ ⟨'t', by decide, rfl⟩), if_neg (hnot _ ⟨'f', by decide, rfl⟩),
      integer_toDigits h]
  have hblank : ¬(isDate (Nat.toDigits 10 n) && ('\n' :: rest).head? = some ' ' &&
      isTime ((('\n' :: rest).tail).takeWhile isScalarChar)) := by simp
  rw [scalar, htoken, hrest, if_neg hblank, hword]
  rfl

theorem value_integer {n : ℕ} (h : n < 2 ^ 63) (k : ℕ) (rest : List Char) :
    value (k + 1) (Nat.toDigits 10 n ++ '\n' :: rest) =
      some (leaf (.integer n), '\n' :: rest) := by
  have hscalar := scalar_toDigits h rest
  cases hdigits : Nat.toDigits 10 n with
  | nil => exact absurd hdigits Nat.toDigits_ne_nil
  | cons c cs =>
    have hc : c.isDigit = true := by
      have hmem : c ∈ Nat.toDigits 10 n := by simp [hdigits]
      exact Nat.isDigit_of_mem_toDigits (by decide) (by decide) hmem
    rw [hdigits] at hscalar
    rw [value.eq_def]
    dsimp only [List.cons_append]
    split
    · rename_i heq
      cases (List.cons.inj heq).1
      cases hc
    · rename_i heq
      cases (List.cons.inj heq).1
      cases hc
    · rename_i heq
      cases (List.cons.inj heq).1
      cases hc
    · rename_i heq
      cases (List.cons.inj heq).1
      cases hc
    · rw [← List.cons_append, hscalar]
      rfl

/-! ## Pairs -/

theorem keyval_eq {read : Reader Nodes} {s t u : List Char} {keys : List Key}
    (hkeys : dottedKey s = some (keys, t)) (ht : skipWs t = '=' :: u) :
    keyval read s = (read (skipWs u)).map fun x => ((keys, x.1), x.2) := by
  rw [keyval, hkeys]
  simp only [Option.bind_eq_bind, Option.bind_some, ht]
  cases read (skipWs u) <;> rfl

/-- The text begins with a key that is not quoted. -/
def Begins (s : List Char) : Prop := s.head?.any isBare = true

theorem Begins.cons {s : List Char} (h : Begins s) : ∃ c t, s = c :: t ∧ isBare c = true := by
  cases s with
  | nil => cases h
  | cons c t => exact ⟨c, t, rfl, h⟩

theorem Begins.skipWs_eq {s : List Char} (h : Begins s) : skipWs s = s := by
  obtain ⟨c, t, rfl, hc⟩ := h.cons
  have hws : ¬isWs c = true := by
    intro hws
    rcases (by simpa [isWs] using hws : c = ' ' ∨ c = '\t') with rfl | rfl
    · cases hc
    · cases hc
  rw [skipWs, List.dropWhile_cons_of_neg hws]

theorem Begins.isBlank_eq {s : List Char} (h : Begins s) : isBlank s = false := by
  obtain ⟨c, t, rfl, hc⟩ := h.cons
  have hcomment : c ≠ '#' := by
    rintro rfl
    cases hc
  have hnewline : newline (c :: t) = none := by
    unfold newline
    split
    · rename_i heq
      cases (List.cons.inj heq).1
      cases hc
    · rename_i heq
      cases (List.cons.inj heq).1
      cases hc
    · rfl
  simp [isBlank, hcomment, hnewline]

theorem Begins.statement_eq {s : List Char} (h : Begins s) (d : Doc) :
    statement d s = (keyval (value (s.length + 1)) s).bind fun x =>
      (d.assign x.1.1 x.1.2).map fun d => (d, x.2) := by
  obtain ⟨c, t, rfl, hc⟩ := h.cons
  unfold statement
  split
  · rename_i heq
    cases (List.cons.inj heq).1
    cases hc
  · rename_i heq
    cases (List.cons.inj heq).1
    cases hc
  · rfl

theorem statement_integer {d : Doc} {s rest : List Char} {keys : List Key} {n : ℕ} (h : Begins s)
    (hn : n < 2 ^ 63)
    (hkeys : dottedKey s = some (keys, '=' :: ' ' :: (Nat.toDigits 10 n ++ '\n' :: rest))) :
    statement d s = (d.assign keys (leaf (.integer n))).map fun d => (d, '\n' :: rest) := by
  have hskip : skipWs (' ' :: (Nat.toDigits 10 n ++ '\n' :: rest)) =
      Nat.toDigits 10 n ++ '\n' :: rest := by
    have hbegins : Begins (Nat.toDigits 10 n ++ '\n' :: rest) := by
      cases hdigits : Nat.toDigits 10 n with
      | nil => exact absurd hdigits Nat.toDigits_ne_nil
      | cons c cs =>
        have hmem : c ∈ Nat.toDigits 10 n := by simp [hdigits]
        have hc := Nat.isDigit_of_mem_toDigits (by decide) (by decide) hmem
        simp [Begins, isBare, Char.isAlphanum, hc]
    exact hbegins.skipWs_eq
  rw [h.statement_eq, keyval_eq hkeys rfl, hskip, value_integer hn]
  rfl

theorem statement_string {d : Doc} {s t : List Char} {keys : List Key} (h : Begins s)
    (hkeys : dottedKey s = some (keys, '=' :: ' ' :: '"' :: t)) :
    statement d s = (string '"' t).bind fun x =>
      (d.assign keys (leaf (.string x.1))).map fun d => (d, x.2) := by
  rw [h.statement_eq, keyval_eq hkeys rfl]
  have hvalue : value (s.length + 1) ('"' :: t) =
      (string '"' t).map fun x => (leaf (.string x.1), x.2) := rfl
  have hskip : skipWs (' ' :: '"' :: t) = '"' :: t := rfl
  rw [hskip, hvalue]
  cases string '"' t <;> rfl

/-! ## Lines -/

theorem reads_statement {d d' f : Doc} {s rest : List Char} (h : Begins s)
    (hstatement : statement d s = some (d', '\n' :: rest)) : Reads d s f ↔ Reads d' rest f := by
  apply reads_iff
  intro n
  have hblank : ¬isBlank s = true := by simp [h.isBlank_eq]
  rw [document, line, h.skipWs_eq, if_neg hblank, hstatement]
  rfl

/-- After a statement, a document grows by what is left of the text at most. -/
theorem grows_after {d f : Doc} {s : List Char} (h : Begins s) (hreads : Reads d s f) :
    ∃ d' rest, statement d s = some (d', rest) ∧ Grows d' f rest.length := by
  have hblank : ¬isBlank s = true := by simp [h.isBlank_eq]
  have hdocument := hreads.document_eq (Nat.lt_succ_self _)
  rw [document, line, h.skipWs_eq, if_neg hblank] at hdocument
  obtain ⟨⟨d', rest⟩, hstatement, hdocument⟩ := Option.bind_eq_some_iff.mp hdocument
  refine ⟨d', rest, hstatement, ?_⟩
  have hle := (length_skipComment_le (skipWs rest)).trans (length_skipWs_le rest)
  dsimp only at hdocument
  split at hdocument
  · obtain rfl := Option.some.inj hdocument
    exact Grows.refl _ _
  · obtain ⟨s₂, hnewline, hdocument⟩ := Option.bind_eq_some_iff.mp hdocument
    have hlt := length_newline hnewline
    exact (document_grows hdocument).mono (by omega)

/-- A quote in a text stands after a part that has none. -/
theorem length_lt_of_quote {q r c t : List Char} (hq : '"' ∉ q) (h : q ++ r = c ++ '"' :: t) :
    t.length < r.length := by
  have hlength := congrArg List.length h
  simp only [List.length_append, List.length_cons] at hlength
  by_contra hle
  have hstarts : c ++ ['"'] <+: q := by
    apply List.prefix_of_prefix_length_le ⟨t, by simp [h]⟩ (List.prefix_append q r)
    simp only [List.length_append, List.length_singleton]
    omega
  exact hq (hstarts.subset (by simp))

/-- A line with a key and a text between quotes, and what it makes of a document when the text
is a string of its own. -/
structure StringLine (d : Doc) (s w rest : List Char) (d' : List Char → Doc) : Prop where
  begins : Begins s
  keys : ∃ keys, dottedKey s = some (keys, '=' :: ' ' :: '"' :: (w ++ '"' :: '\n' :: rest)) ∧
    ∀ v, d.assign keys (leaf (.string v)) = some (d' v)

theorem StringLine.statement_eq {d : Doc} {s w rest : List Char} {d' : List Char → Doc}
    (h : StringLine d s w rest d') :
    statement d s = (string '"' (w ++ '"' :: '\n' :: rest)).map fun x => (d' x.1, x.2) := by
  obtain ⟨keys, hkeys, hassign⟩ := h.keys
  rw [statement_string h.begins hkeys]
  simp only [hassign]
  cases string '"' (w ++ '"' :: '\n' :: rest) <;> rfl

theorem StringLine.reads_iff {d f : Doc} {s w rest : List Char} {d' : List Char → Doc}
    (h : StringLine d s w rest d') (hplain : ∀ x ∈ w, isPlain x = true) :
    Reads d s f ↔ Reads (d' w) rest f := by
  apply reads_statement h.begins
  rw [h.statement_eq, string_plain hplain _ (by simp)]
  rfl

/-- The text comes back under its key only if it is plain, or the string it begins ends in a
later line, and the document has no more in it than what is left can say. -/
theorem StringLine.plain_or_grows {d f : Doc} {s w rest : List Char} {d' : List Char → Doc}
    (h : StringLine d s w rest d') (hreads : Reads d s f)
    (hback : ∀ v m, Grows (d' v) f m → v = w) :
    (∀ x ∈ w, isPlain x = true) ∧ Reads (d' w) rest f ∨
      w.head? = some '"' ∧
        ∃ c rest', rest = c ++ '"' :: '"' :: '"' :: rest' ∧ Grows (d' w) f rest'.length := by
  obtain ⟨d₁, rest', hstatement, hgrows⟩ := grows_after h.begins hreads
  rw [h.statement_eq] at hstatement
  obtain ⟨⟨v, rest₁⟩, hstring, heq⟩ := Option.map_eq_some_iff.mp hstatement
  obtain ⟨rfl, rfl⟩ := Prod.mk.inj heq
  obtain rfl : v = w := hback v _ hgrows
  rcases string_eq_self hstring with ⟨hplain, rfl⟩ | ⟨hhead, c, hc⟩
  · exact .inl ⟨hplain, (h.reads_iff hplain).mp hreads⟩
  · exact .inr ⟨hhead, c, rest₁, hc, hgrows⟩

end AgentExchange.Library.Toml
