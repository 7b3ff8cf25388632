import AgentExchange.Core.Json

/-!
# The canonical JSON text determines the value

The writer sorts and prints in one pass. Sorting first and printing afterwards
gives the same text, and the printing half is self-delimiting: escapes form a
prefix code ended by a quote, numbers end at the first character that is not part
of a numeral, arrays and objects are bracketed. The text therefore determines the
value up to the order of object keys.
-/
namespace AgentExchange.Json

open Library

/-- The characters the writer escapes, by code point: controls, the quote, the backslash. -/
def escapes (n : ℕ) : Bool := n < 32 || n = 34 || n = 92

theorem escapeChar_of_plain {c : Char} (h : escapes c.toNat = false) : escapeChar c = [c] := by
  have hne : ∀ d : Char, escapes d.toNat = true → c ≠ d := by
    rintro d hd rfl
    simp [h] at hd
  have hlow : ¬c.toNat < 32 := by
    intro hlt
    simp [escapes, hlt] at h
  simp [escapeChar, hne '"' (by decide), hne '\\' (by decide), hne '\x08' (by decide),
    hne '\x0c' (by decide), hne '\n' (by decide), hne '\r' (by decide), hne '\t' (by decide), hlow]

theorem lt_of_escapes {n : ℕ} (h : escapes n = true) : n < 93 := by
  simp only [escapes, Bool.or_eq_true, decide_eq_true_eq] at h
  omega

/-- Escaped characters are finitely many, so their code words are compared one by one. -/
theorem escapeChar_escaped_apart {c d : Char} (hc : escapes c.toNat = true)
    (hd : escapes d.toNat = true) (h : escapeChar c <+: escapeChar d) : c = d := by
  have hall : ∀ m < 93, escapes m = true → ∀ n < 93, escapes n = true →
      escapeChar (Char.ofNat m) <+: escapeChar (Char.ofNat n) → m = n := by
    decide +kernel
  have hcode := hall c.toNat (lt_of_escapes hc) hc d.toNat (lt_of_escapes hd) hd
    (by simpa only [Char.ofNat_toNat] using h)
  rw [← Char.ofNat_toNat c, hcode, Char.ofNat_toNat]

theorem escapeChar_of_escaped {c : Char} (hc : escapes c.toNat = true) :
    ∃ rest, escapeChar c = '\\' :: rest := by
  have hall : ∀ n < 93, escapes n = true → (escapeChar (Char.ofNat n)).head? = some '\\' := by
    decide +kernel
  have hhead := hall c.toNat (lt_of_escapes hc) hc
  rw [Char.ofNat_toNat, List.head?_eq_some_iff] at hhead
  exact hhead

theorem escapeChar_head (c : Char) : ∃ d rest, escapeChar c = d :: rest ∧ d ≠ '"' := by
  cases hc : escapes c.toNat with
  | true =>
    obtain ⟨rest, hrest⟩ := escapeChar_of_escaped hc
    exact ⟨'\\', rest, hrest, by decide⟩
  | false =>
    refine ⟨c, [], escapeChar_of_plain hc, ?_⟩
    rintro rfl
    exact absurd hc (by decide)

theorem escapeChar_prefixFree : PrefixFree escapeChar := by
  intro c d h
  have hslash : ∀ x : Char, escapes x.toNat = false → x ≠ '\\' := by
    rintro x hx rfl
    exact absurd hx (by decide)
  cases hc : escapes c.toNat with
  | true =>
    cases hd : escapes d.toNat with
    | true => exact escapeChar_escaped_apart hc hd h
    | false =>
      obtain ⟨rest, hrest⟩ := escapeChar_of_escaped hc
      rw [escapeChar_of_plain hd, hrest, List.cons_prefix_cons] at h
      exact (hslash d hd h.1.symm).elim
  | false =>
    cases hd : escapes d.toNat with
    | true =>
      obtain ⟨rest, hrest⟩ := escapeChar_of_escaped hd
      rw [escapeChar_of_plain hc, hrest, List.cons_prefix_cons] at h
      exact (hslash c hc h.1).elim
    | false =>
      rw [escapeChar_of_plain hc, escapeChar_of_plain hd, List.cons_prefix_cons] at h
      exact h.1

theorem toList_jsonString (s : String) :
    (jsonString s).toList = '"' :: s.toList.flatMap escapeChar ++ ['"'] := by
  simp [jsonString]

/-- A string literal ends at its closing quote, whatever the string holds. -/
theorem jsonString_append_inj {s t : String} {u v : List Char}
    (h : (jsonString s).toList ++ u = (jsonString t).toList ++ v) : s = t ∧ u = v := by
  rw [toList_jsonString, toList_jsonString, List.append_assoc, List.append_assoc] at h
  have h' := (List.cons.inj h).2
  obtain ⟨hst, huv⟩ := escapeChar_prefixFree.flatMap_inj escapeChar_head h'
  exact ⟨String.toList_inj.mp hst, huv⟩

section Numbers

variable (f : FloatText)

theorem numeralChar_of_mem_numberText (n : Number) :
    ∀ c ∈ (numberText f n).toList, numeralChar c = true := by
  intro c hc
  cases n with
  | int n _ _ =>
    rcases isDigit_or_minus_of_mem_intRepr hc with h | h <;> simp [numeralChar, h]
  | float x => exact f.numeral x c hc

theorem numberText_inj {m n : Number} (h : numberText f m = numberText f n) : m = n := by
  have hmark : ∀ (k : ℤ) (x : FiniteF64), Int.repr k ≠ f.format x := by
    intro k x hk
    rcases f.marked x with hx | hx <;> rw [← hk] at hx
    · exact not_mem_intRepr (by decide) (by decide) hx
    · exact not_mem_intRepr (by decide) (by decide) hx
  cases m with
  | int m _ _ =>
    cases n with
    | int n _ _ => simpa using Int.repr_inj.mp h
    | float y => exact (hmark m y h).elim
  | float x =>
    cases n with
    | int n _ _ => exact (hmark n x h.symm).elim
    | float y => rw [f.format_inj h]

theorem numberText_ne_nil (n : Number) : (numberText f n).toList ≠ [] := by
  cases n with
  | int n _ _ =>
    cases n with
    | ofNat m =>
      change (Nat.repr m).toList ≠ []
      rw [Nat.toList_repr]
      exact Nat.toDigits_ne_nil
    | negSucc m => simp [numberText, Int.repr]
  | float x =>
    intro hnil
    change (f.format x).toList = [] at hnil
    rcases f.marked x with hx | hx <;> simp [hnil] at hx

end Numbers

mutual

/-- The writer without the sorting: entries in the order they have. -/
def render (f : FloatText) : Json → List Char
  | null => "null".toList
  | bool b => (if b then "true" else "false").toList
  | num n => (numberText f n).toList
  | str s => (jsonString s).toList
  | arr xs => '[' :: joined ',' (renderElements f xs) ++ [']']
  | obj fields => '\x7b' :: joined ',' (renderEntries f fields) ++ ['\x7d']

def renderElements (f : FloatText) : List Json → List (List Char)
  | [] => []
  | x :: xs => render f x :: renderElements f xs

def renderEntries (f : FloatText) : List (String × Json) → List (List Char)
  | [] => []
  | (k, v) :: rest => ((jsonString k).toList ++ ':' :: render f v) :: renderEntries f rest

end

def entryChars (entry : String × List Char) : List Char :=
  (jsonString entry.1).toList ++ ':' :: entry.2

def renderEntry (f : FloatText) (entry : String × Json) : List Char :=
  entryChars (entry.1, render f entry.2)

theorem renderElements_eq_map (f : FloatText) (xs : List Json) :
    renderElements f xs = xs.map (render f) := by
  induction xs with
  | nil => rfl
  | cons x xs ih => simp [renderElements, ih]

theorem renderEntries_eq_map (f : FloatText) (fields : List (String × Json)) :
    renderEntries f fields = fields.map (renderEntry f) := by
  induction fields with
  | nil => rfl
  | cons entry rest ih => simp [renderEntries, renderEntry, entryChars, ih]

theorem map_sortByKey {β β' : Type} (g : β → β') (entries : List (String × β)) :
    (sortByKey entries).map (fun e => (e.1, g e.2)) =
      sortByKey (entries.map fun e => (e.1, g e.2)) :=
  List.map_insertionSort _ _ _ _ fun _ _ _ _ => Iff.rfl

section Canonical

variable (f : FloatText)

mutual

/-- Writing canonically is printing the value with its keys sorted. -/
theorem toList_writeCanonical (j : Json) :
    (writeCanonical f j).toList = render f (sortKeys j) := by
  match j with
  | null => rfl
  | bool b => rfl
  | num n => rfl
  | str s => rfl
  | arr xs =>
    simp only [writeCanonical, commaSeparated, String.toList_append, String.toList_ofList,
      sortKeys, render, toList_writeElements xs]
    rfl
  | obj fields =>
    have hsort : ((sortByKey (writeEntries f fields)).map entryText).map String.toList =
        renderEntries f (sortByKey (sortKeysEntries fields)) := by
      calc ((sortByKey (writeEntries f fields)).map entryText).map String.toList
          = ((sortByKey (writeEntries f fields)).map fun e => (e.1, e.2.toList)).map entryChars := by
            simp [entryText, entryChars, Function.comp_def]
        _ = (sortByKey ((sortKeysEntries fields).map fun e => (e.1, render f e.2))).map
              entryChars := by
            rw [map_sortByKey, toList_writeEntries fields]
        _ = renderEntries f (sortByKey (sortKeysEntries fields)) := by
            rw [← map_sortByKey, renderEntries_eq_map, List.map_map]
            rfl
    simp only [writeCanonical, commaSeparated, String.toList_append, String.toList_ofList,
      sortKeys, render, hsort]
    rfl

theorem toList_writeElements (xs : List Json) :
    (writeElements f xs).map String.toList = renderElements f (sortKeysElements xs) := by
  match xs with
  | [] => rfl
  | x :: xs =>
    simp only [writeElements, sortKeysElements, renderElements, List.map_cons,
      toList_writeCanonical x, toList_writeElements xs]

theorem toList_writeEntries (fields : List (String × Json)) :
    (writeEntries f fields).map (fun e => (e.1, e.2.toList)) =
      (sortKeysEntries fields).map fun e => (e.1, render f e.2) := by
  match fields with
  | [] => rfl
  | (k, v) :: rest =>
    simp only [writeEntries, sortKeysEntries, List.map_cons, toList_writeCanonical v,
      toList_writeEntries rest]

end

end Canonical

/-- What may follow a value: a separator, a closing bracket, or nothing. -/
def stops (c : Char) : Prop := c = ',' ∨ c = ']' ∨ c = '\x7d'

theorem stops_comma : stops ',' := Or.inl rfl

theorem stops_bracket : stops ']' := Or.inr (Or.inl rfl)

theorem stops_brace : stops '\x7d' := Or.inr (Or.inr rfl)

inductive Kind where
  | null | true | false | number | string | array | object
  deriving DecidableEq

def kind : Json → Kind
  | null => .null
  | bool b => if b then .true else .false
  | num _ => .number
  | str _ => .string
  | arr _ => .array
  | obj _ => .object

/-- The kind of the value that starts with `c`. -/
def leads (c : Char) : Kind :=
  if c = 'n' then .null
  else if c = 't' then .true
  else if c = 'f' then .false
  else if c = '"' then .string
  else if c = '[' then .array
  else if c = '\x7b' then .object
  else .number

theorem numeralChar_ne {c d : Char} (hc : numeralChar c = true) (hd : numeralChar d = false) :
    c ≠ d := by
  rintro rfl
  simp [hc] at hd

theorem leads_numeralChar {c : Char} (hc : numeralChar c = true) : leads c = .number := by
  simp [leads, numeralChar_ne hc (d := 'n') (by decide), numeralChar_ne hc (d := 't') (by decide),
    numeralChar_ne hc (d := 'f') (by decide), numeralChar_ne hc (d := '"') (by decide),
    numeralChar_ne hc (d := '[') (by decide), numeralChar_ne hc (d := '\x7b') (by decide)]

theorem not_stops_numeralChar {c : Char} (hc : numeralChar c = true) : ¬stops c := by
  rintro (h | h | h)
  · exact numeralChar_ne hc (by decide) h
  · exact numeralChar_ne hc (by decide) h
  · exact numeralChar_ne hc (by decide) h

theorem render_head (f : FloatText) (j : Json) :
    ∃ c rest, render f j = c :: rest ∧ leads c = kind j ∧ ¬stops c := by
  match j with
  | null => exact ⟨'n', "ull".toList, rfl, rfl, by unfold stops; decide⟩
  | bool true => exact ⟨'t', "rue".toList, rfl, rfl, by unfold stops; decide⟩
  | bool false => exact ⟨'f', "alse".toList, rfl, rfl, by unfold stops; decide⟩
  | num n =>
    cases htext : (numberText f n).toList with
    | nil => exact (numberText_ne_nil f n htext).elim
    | cons c rest =>
      have hc := numeralChar_of_mem_numberText f n c (by simp [htext])
      exact ⟨c, rest, htext, leads_numeralChar hc, not_stops_numeralChar hc⟩
  | str s => exact ⟨'"', _, toList_jsonString s, rfl, by unfold stops; decide⟩
  | arr xs => exact ⟨'[', _, rfl, rfl, by unfold stops; decide⟩
  | obj fields => exact ⟨'\x7b', _, rfl, rfl, by unfold stops; decide⟩

theorem kind_eq_of_render {f : FloatText} {a b : Json} {s t : List Char}
    (h : render f a ++ s = render f b ++ t) : kind b = kind a := by
  obtain ⟨c, rest, hc, hkind, -⟩ := render_head f a
  obtain ⟨c', rest', hc', hkind', -⟩ := render_head f b
  rw [hc, hc'] at h
  rw [← hkind, ← hkind', (List.cons.inj h).1]

theorem renderEntry_head (f : FloatText) (e : String × Json) :
    ∃ c rest, renderEntry f e = c :: rest ∧ c ≠ '\x7d' :=
  ⟨'"', _, by simp [renderEntry, entryChars, toList_jsonString]; rfl, by decide⟩

/-- The values of a kind, by how they are built. -/
theorem shape_of_kind (b : Json) :
    match kind b with
    | .null => b = null
    | .true => b = bool true
    | .false => b = bool false
    | .number => ∃ n, b = num n
    | .string => ∃ s, b = str s
    | .array => ∃ xs, b = arr xs
    | .object => ∃ fields, b = obj fields := by
  cases b with
  | null => rfl
  | bool x => cases x <;> rfl
  | num n => exact ⟨n, rfl⟩
  | str s => exact ⟨s, rfl⟩
  | arr xs => exact ⟨xs, rfl⟩
  | obj fields => exact ⟨fields, rfl⟩

section Apart

variable (f : FloatText)

theorem apart_number (m : Number) : Apart stops (render f) (num m) := by
  intro b s t hs ht h
  have hshape := shape_of_kind b
  rw [kind_eq_of_render h] at hshape
  obtain ⟨n, rfl⟩ := hshape
  obtain ⟨htext, hst⟩ := word_append_inj
    (fun c hc => not_stops_numeralChar (numeralChar_of_mem_numberText f m c hc))
    (fun c hc => not_stops_numeralChar (numeralChar_of_mem_numberText f n c hc)) hs ht h
  exact ⟨by rw [numberText_inj f (String.toList_inj.mp htext)], hst⟩

theorem apart_string (x : String) : Apart stops (render f) (str x) := by
  intro b s t _ _ h
  have hshape := shape_of_kind b
  rw [kind_eq_of_render h] at hshape
  obtain ⟨y, rfl⟩ := hshape
  obtain ⟨hxy, hst⟩ := jsonString_append_inj h
  exact ⟨by rw [hxy], hst⟩

theorem apart_array {xs : List Json} (hxs : ∀ x ∈ xs, Apart stops (render f) x) :
    Apart stops (render f) (arr xs) := by
  intro b s t _ _ h
  have hshape := shape_of_kind b
  rw [kind_eq_of_render h] at hshape
  obtain ⟨ys, rfl⟩ := hshape
  simp only [render, renderElements_eq_map, List.cons_append, List.append_assoc,
    List.cons.injEq, true_and, List.nil_append] at h
  obtain ⟨hxy, hst⟩ := joined_append_inj stops_comma stops_bracket (by decide)
    (fun a => by
      obtain ⟨c, rest, hc, -, hstop⟩ := render_head f a
      exact ⟨c, rest, hc, fun he => hstop (he ▸ stops_bracket)⟩) hxs h
  exact ⟨by rw [hxy], hst⟩

theorem apart_object {xs : List (String × Json)}
    (hxs : ∀ e ∈ xs, Apart stops (renderEntry f) e) : Apart stops (render f) (obj xs) := by
  intro b s t _ _ h
  have hshape := shape_of_kind b
  rw [kind_eq_of_render h] at hshape
  obtain ⟨ys, rfl⟩ := hshape
  simp only [render, renderEntries_eq_map, List.cons_append, List.append_assoc,
    List.cons.injEq, true_and, List.nil_append] at h
  obtain ⟨hxy, hst⟩ := joined_append_inj stops_comma stops_brace (by decide)
    (renderEntry_head f) hxs h
  exact ⟨by rw [hxy], hst⟩

theorem apart_entry {k : String} {v : Json} (hv : Apart stops (render f) v) :
    Apart stops (renderEntry f) (k, v) := by
  rintro ⟨k', v'⟩ s t hs ht h
  simp only [renderEntry, entryChars, List.append_assoc, List.cons_append] at h
  obtain ⟨hk, hrest⟩ := jsonString_append_inj h
  obtain ⟨hv, hst⟩ := hv v' s t hs ht (List.cons.inj hrest).2
  exact ⟨by rw [hk, hv], hst⟩

/-- A literal is told apart by its kind alone. -/
theorem apart_literal {a : Json} (ha : ∀ b, kind b = kind a → b = a) :
    Apart stops (render f) a := by
  intro b s t _ _ h
  obtain rfl := ha b (kind_eq_of_render h)
  exact ⟨rfl, List.append_cancel_left h⟩

theorem eq_null_of_kind {b : Json} (h : kind b = .null) : b = null := by
  have hshape := shape_of_kind b
  rwa [h] at hshape

theorem eq_bool_of_kind {b : Json} {x : Bool} (h : kind b = kind (bool x)) : b = bool x := by
  have hshape := shape_of_kind b
  cases x <;> rwa [h] at hshape

mutual

/-- No value's text is confused with another's inside a larger text. -/
theorem render_apart (j : Json) : Apart stops (render f) j := by
  match j with
  | null => exact apart_literal f (fun _ => eq_null_of_kind)
  | bool x => exact apart_literal f (fun _ => eq_bool_of_kind)
  | num m => exact apart_number f m
  | str x => exact apart_string f x
  | arr xs => exact apart_array f (render_apart_elements xs)
  | obj xs => exact apart_object f (render_apart_entries xs)

theorem render_apart_elements (xs : List Json) : ∀ x ∈ xs, Apart stops (render f) x := by
  match xs with
  | [] => simp
  | x :: xs => exact List.forall_mem_cons.mpr ⟨render_apart x, render_apart_elements xs⟩

theorem render_apart_entries (fields : List (String × Json)) :
    ∀ e ∈ fields, Apart stops (renderEntry f) e := by
  match fields with
  | [] => simp
  | (k, v) :: rest =>
    exact List.forall_mem_cons.mpr ⟨apart_entry f (render_apart v), render_apart_entries rest⟩

end

end Apart

/-- The canonical text determines the value up to key order, also inside a larger text. -/
theorem writeCanonical_append_inj {f : FloatText} {a b : Json} {s t : List Char}
    (hs : Delimited stops s) (ht : Delimited stops t)
    (h : (writeCanonical f a).toList ++ s = (writeCanonical f b).toList ++ t) :
    Agrees a b ∧ s = t := by
  rw [toList_writeCanonical, toList_writeCanonical] at h
  exact render_apart f _ _ _ _ hs ht h

theorem writeCanonical_eq_iff {f : FloatText} {a b : Json} :
    writeCanonical f a = writeCanonical f b ↔ Agrees a b := by
  constructor
  · intro h
    exact (writeCanonical_append_inj (s := []) (t := []) (by simp [Delimited])
      (by simp [Delimited]) (by rw [h])).1
  · intro h
    apply String.toList_inj.mp
    rw [toList_writeCanonical, toList_writeCanonical, h]

section Agreement

theorem sortKeysEntries_eq_map (fields : List (String × Json)) :
    sortKeysEntries fields = fields.map fun e => (e.1, sortKeys e.2) := by
  induction fields with
  | nil => rfl
  | cons e rest ih => simp [sortKeysEntries, ih]

theorem sortByKey_perm {β : Type} (entries : List (String × β)) :
    (sortByKey entries).Perm entries :=
  List.perm_insertionSort _ entries

theorem sortByKey_eq_of_perm {β : Type} {xs ys : List (String × β)} (h : xs.Perm ys)
    (hkeys : (xs.map Prod.fst).Nodup) : sortByKey xs = sortByKey ys := by
  have hperm : (sortByKey xs).Perm (sortByKey ys) :=
    (sortByKey_perm xs).trans (h.trans (sortByKey_perm ys).symm)
  refine hperm.eq_of_pairwise ?_ (List.pairwise_insertionSort _ xs)
    (List.pairwise_insertionSort _ ys)
  intro a b ha hb hab hba
  have hxs : a ∈ xs := (sortByKey_perm xs).mem_iff.mp ha
  have hys : b ∈ xs := h.mem_iff.mpr ((sortByKey_perm ys).mem_iff.mp hb)
  exact List.inj_on_of_nodup_map hkeys hxs hys (le_antisymm hab hba)

/-- Objects agree exactly when they hold agreeing entries, in whatever order. -/
theorem agrees_obj_iff {xs ys : List (String × Json)} (hkeys : (xs.map Prod.fst).Nodup) :
    Agrees (obj xs) (obj ys) ↔
      (xs.map fun e => (e.1, sortKeys e.2)).Perm (ys.map fun e => (e.1, sortKeys e.2)) := by
  simp only [Agrees, sortKeys, sortKeysEntries_eq_map, obj.injEq]
  constructor
  · intro h
    exact (sortByKey_perm _).symm.trans (h ▸ sortByKey_perm _)
  · intro h
    exact sortByKey_eq_of_perm h (by simpa [Function.comp_def] using hkeys)

end Agreement

end AgentExchange.Json
