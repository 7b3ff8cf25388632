import AgentExchange.Library.Toml

/-!
# Laws of the TOML reader

What a string is read from, how much of a text a reader takes for what it reads, and that a
document only grows while it is read. Every node weighs what it takes at least to write it, so a
text cannot say more than it is long. No loop runs out of rounds.
-/
namespace AgentExchange.Library.Toml

/-! ## Strings -/

/-- How many quotes close a string. -/
def width (multi : Bool) : ℕ := if multi then 3 else 1

theorem closing_shape {quote : Char} {multi : Bool} {s w rest : List Char}
    (h : closing quote multi s = some (w, rest)) :
    ∃ c, quote :: s = c ++ List.replicate (width multi) quote ++ rest ∧ w.length ≤ c.length ∧
      (multi = false → c = []) := by
  have hquotes (n : ℕ) (hs : s.take (n + 2) = List.replicate (n + 2) quote) :
      quote :: s = List.replicate n quote ++ List.replicate 3 quote ++ s.drop (n + 2) := by
    conv_lhs => rw [← List.take_append_drop (n + 2) s, hs]
    rw [← List.cons_append, ← List.replicate_succ, List.replicate_append_replicate]
  cases multi with
  | false =>
    obtain ⟨rfl, rfl⟩ : [] = w ∧ s = rest := by simpa [closing] using h
    exact ⟨[], rfl, le_rfl, fun _ => rfl⟩
  | true =>
    simp only [closing, if_true] at h
    split_ifs at h with h4 h3 h2
    · obtain ⟨rfl, rfl⟩ := Prod.mk.inj (Option.some.inj h)
      exact ⟨List.replicate 2 quote, hquotes 2 h4, le_rfl, nofun⟩
    · obtain ⟨rfl, rfl⟩ := Prod.mk.inj (Option.some.inj h)
      exact ⟨List.replicate 1 quote, hquotes 1 h3, le_rfl, nofun⟩
    · obtain ⟨rfl, rfl⟩ := Prod.mk.inj (Option.some.inj h)
      exact ⟨[], hquotes 0 h2, le_rfl, nofun⟩

/-- What ends a string is a quote. -/
theorem move_closed {quote : Char} {multi : Bool} {mode : Mode} {x : Char}
    {s : List Char} {rest : List Char × List Char}
    (h : move quote multi mode x s = .closed rest) :
    x = quote ∧ closing quote multi s = some rest := by
  cases mode with
  | text trim =>
    dsimp only [move] at h
    split_ifs at h with htrim hquote
    cases hclosing : closing quote multi s with
    | none =>
      rw [hclosing] at h
      cases h
    | some closed =>
      rw [hclosing] at h
      cases h
      exact ⟨hquote, rfl⟩
  | escaped =>
    dsimp only [move] at h
    split at h
    · cases h
    · split_ifs at h
  | digits left value =>
    dsimp only [move] at h
    split at h
    · cases h
    · split at h
      · cases h
      · split_ifs at h
  | folding =>
    dsimp only [move] at h
    split_ifs at h

/-- The reader is not where a line is folded. -/
def Mode.onLine : Mode → Bool
  | .text trim => !trim
  | .folding => false
  | _ => true

theorem move_newline {quote : Char} {mode : Mode} (hquote : '\n' ≠ quote)
    (hmode : mode.onLine = true) (s : List Char) : move quote false mode '\n' s = .fail := by
  cases mode with
  | text trim =>
    obtain rfl : trim = false := by simpa [Mode.onLine] using hmode
    have htext : isText '\n' = false := by decide
    simp [move, hquote, htext]
  | escaped => rfl
  | digits left value => rfl
  | folding => cases hmode

theorem move_onLine {quote : Char} {mode mode' : Mode} {x : Char} {s : List Char}
    {out : Option Char} (hmode : mode.onLine = true)
    (h : move quote false mode x s = .go mode' out) : mode'.onLine = true := by
  cases mode with
  | text trim =>
    obtain rfl : trim = false := by simpa [Mode.onLine] using hmode
    simp only [move, closing, Bool.false_and, Bool.false_eq_true, if_false] at h
    split_ifs at h
    all_goals
      obtain ⟨rfl, -⟩ := Move.go.inj h
      rfl
  | escaped =>
    simp only [move, Bool.false_and, Bool.false_eq_true, if_false] at h
    split at h
    · obtain ⟨rfl, -⟩ := Move.go.inj h
      rfl
    · split_ifs at h
      all_goals
        obtain ⟨rfl, -⟩ := Move.go.inj h
        rfl
  | digits left value =>
    dsimp only [move] at h
    split at h
    · cases h
    · split at h
      · obtain ⟨rfl, -⟩ := Move.go.inj h
        rfl
      · split_ifs at h
        obtain ⟨rfl, -⟩ := Move.go.inj h
        rfl
  | folding => cases hmode

/-- What a string is read from: its text, which is no shorter than the string, and the quotes
that close it. -/
theorem body_shape {quote : Char} {multi : Bool} {mode : Mode} {s w rest : List Char}
    (h : body quote multi mode s = some (w, rest)) :
    ∃ c, s = c ++ List.replicate (width multi) quote ++ rest ∧ w.length ≤ c.length ∧
      (multi = false → mode.onLine = true → '\n' ≠ quote → '\n' ∉ c) := by
  induction s generalizing mode w with
  | nil => cases h
  | cons x s ih =>
    rw [body] at h
    cases hmove : move quote multi mode x s with
    | fail =>
      rw [hmove] at h
      cases h
    | closed closed =>
      rw [hmove] at h
      obtain rfl := Option.some.inj h
      obtain ⟨rfl, hclosing⟩ := move_closed hmove
      obtain ⟨c, hsplit, hlength, hline⟩ := closing_shape hclosing
      refine ⟨c, hsplit, hlength, fun hmulti _ _ hmem => ?_⟩
      rw [hline hmulti] at hmem
      cases hmem
    | go mode' out =>
      rw [hmove] at h
      obtain ⟨⟨w', rest'⟩, hbody, heq⟩ := Option.map_eq_some_iff.mp h
      obtain ⟨rfl, rfl⟩ := Prod.mk.inj heq
      obtain ⟨c, rfl, hlength, hline⟩ := ih hbody
      refine ⟨x :: c, rfl, ?_, ?_⟩
      · have hout : out.toList.length ≤ 1 := by cases out <;> simp
        simp only [List.length_append, List.length_cons]
        omega
      · rintro rfl hmode hquote hmem
        rcases List.mem_cons.mp hmem with rfl | hmem
        · rw [move_newline hquote hmode] at hmove
          cases hmove
        · exact hline rfl (move_onLine hmode hmove) hquote hmem

/-! ### Strings that are written as they are -/

theorem move_plain {x : Char} (h : isPlain x = true) (s : List Char) :
    move '"' false (.text false) x s = .go (.text false) (some x) := by
  obtain ⟨⟨htext, hquote⟩, hescape⟩ : (isText x = true ∧ x ≠ '"') ∧ x ≠ '\\' := by
    simpa [isPlain] using h
  simp [move, htext, hquote, hescape]

theorem body_plain {w : List Char} (h : ∀ x ∈ w, isPlain x = true) (rest : List Char) :
    body '"' false (.text false) (w ++ '"' :: rest) = some (w, rest) := by
  induction w with
  | nil => rfl
  | cons x w ih =>
    rw [List.cons_append, body, move_plain (h x List.mem_cons_self)]
    dsimp only
    rw [ih fun y hy => h y (List.mem_cons_of_mem x hy)]
    rfl

/-- A string that is as long as what it is read from has nothing to escape. -/
theorem plain_of_length {c w rest : List Char}
    (h : body '"' false (.text false) (c ++ '"' :: rest) = some (w, rest))
    (hlength : c.length ≤ w.length) : w = c ∧ ∀ x ∈ c, isPlain x = true := by
  induction c generalizing w with
  | nil =>
    obtain ⟨rfl, -⟩ := Prod.mk.inj (Option.some.inj h)
    exact ⟨rfl, nofun⟩
  | cons x c ih =>
    rw [List.cons_append, body] at h
    cases hmove : move '"' false (.text false) x (c ++ '"' :: rest) with
    | fail =>
      rw [hmove] at h
      cases h
    | closed closed =>
      rw [hmove] at h
      obtain rfl := Option.some.inj h
      obtain ⟨-, hclosing⟩ := move_closed hmove
      obtain ⟨rfl, -⟩ := Prod.mk.inj (Option.some.inj hclosing)
      cases hlength
    | go mode out =>
      rw [hmove] at h
      obtain ⟨⟨w', rest'⟩, hbody, heq⟩ := Option.map_eq_some_iff.mp h
      obtain ⟨rfl, rfl⟩ := Prod.mk.inj heq
      simp only [move, closing, Bool.false_and, Bool.false_eq_true, if_false] at hmove
      split_ifs at hmove with hquote hescape htext
      · -- the character that a backslash takes is missing in the string
        obtain ⟨rfl, rfl⟩ := Move.go.inj hmove
        obtain ⟨c', hsplit, hshort, -⟩ := body_shape hbody
        have hc := congrArg List.length hsplit
        simp only [width, List.length_append, List.length_cons, List.length_replicate] at hc
        simp only [Option.toList_none, List.nil_append, List.length_cons] at hlength
        simp only [Bool.false_eq_true, if_false] at hc
        omega
      · obtain ⟨rfl, rfl⟩ := Move.go.inj hmove
        obtain ⟨rfl, hplain⟩ := ih hbody (by simpa using hlength)
        refine ⟨rfl, ?_⟩
        have hx : isPlain x = true := by
          simp only [Bool.and_eq_true, decide_eq_true_eq, and_true] at hescape
          simpa [isPlain, hquote, hescape] using htext
        simpa [hx] using hplain

theorem string_plain {w : List Char} (h : ∀ x ∈ w, isPlain x = true) (rest : List Char)
    (hrest : rest.head? ≠ some '"') :
    string '"' (w ++ '"' :: rest) = some (w, rest) := by
  have htake : (w ++ '"' :: rest).take 2 ≠ List.replicate 2 '"' := by
    intro htake
    cases w with
    | nil =>
      cases rest with
      | nil => cases htake
      | cons y rest =>
        apply hrest
        have := (List.cons.inj (List.cons.inj htake).2).1
        rw [this]
        rfl
    | cons x w =>
      have hx := h x List.mem_cons_self
      rw [(List.cons.inj htake).1] at hx
      cases hx
  rw [string, if_neg htake]
  exact body_plain h rest

theorem newline_suffix {s rest : List Char} (h : newline s = some rest) :
    ∃ c, s = c ++ rest := by
  unfold newline at h
  split at h
  · obtain rfl := Option.some.inj h
    exact ⟨['\n'], rfl⟩
  · obtain rfl := Option.some.inj h
    exact ⟨['\r', '\n'], rfl⟩
  · cases h

/-- Between single quotes or between three. -/
theorem string_shape {quote : Char} {s w rest : List Char}
    (h : string quote s = some (w, rest)) :
    body quote false (.text false) s = some (w, rest) ∨
      ∃ c, s = List.replicate 2 quote ++ c ++ List.replicate 3 quote ++ rest ∧
        w.length ≤ c.length := by
  unfold string at h
  split_ifs at h with htake
  · obtain ⟨c, hsplit, hlength, -⟩ := body_shape h
    obtain ⟨b, hb⟩ : ∃ b, s.drop 2 = b ++ (newline (s.drop 2)).getD (s.drop 2) := by
      cases hnewline : newline (s.drop 2) with
      | none => exact ⟨[], rfl⟩
      | some rest => exact newline_suffix hnewline
    refine .inr ⟨b ++ c, ?_, ?_⟩
    · rw [← List.take_append_drop 2 s, htake, hb, hsplit]
      simp [width]
    · rw [List.length_append]
      omega
  · exact .inl h

/-- A text between two quotes at the end of a line is read as itself only if it is plain, or
the string goes on over many lines. -/
theorem string_eq_self {w rest rest' : List Char}
    (h : string '"' (w ++ '"' :: '\n' :: rest) = some (w, rest')) :
    (∀ x ∈ w, isPlain x = true) ∧ rest' = '\n' :: rest ∨
      w.head? = some '"' ∧ ∃ c, rest = c ++ '"' :: '"' :: '"' :: rest' := by
  rcases string_shape h with hbody | ⟨c, hsplit, hlength⟩
  · obtain ⟨c, hsplit, hlength, hline⟩ := body_shape hbody
    have hnewline := hline rfl rfl (by decide)
    rw [List.append_assoc] at hsplit
    obtain ⟨t, rfl⟩ : w <+: c :=
      List.prefix_of_prefix_length_le (List.prefix_append w _) ⟨_, hsplit.symm⟩ hlength
    rw [List.append_assoc] at hsplit
    have htail := List.append_cancel_left hsplit
    -- the string ends before the line does
    cases t with
    | nil =>
      obtain ⟨-, rfl⟩ := List.cons.inj htail
      exact .inl ⟨(plain_of_length hbody le_rfl).2, rfl⟩
    | cons x t =>
      obtain ⟨-, htail⟩ := List.cons.inj htail
      cases t with
      | nil => cases htail
      | cons y t =>
        obtain ⟨rfl, -⟩ := List.cons.inj htail
        exact absurd (by simp) hnewline
  · have hhead : w.head? = some '"' := by
      cases w with
      | nil => cases (List.cons.inj (List.cons.inj hsplit).2).1
      | cons x w => rw [(List.cons.inj hsplit).1, List.head?_cons]
    refine .inr ⟨hhead, ?_⟩
    have hleft : w ++ ['"', '\n'] <+: w ++ '"' :: '\n' :: rest := ⟨rest, by simp⟩
    have hright : List.replicate 2 '"' ++ c <+: w ++ '"' :: '\n' :: rest :=
      ⟨List.replicate 3 '"' ++ rest', by rw [hsplit]; simp⟩
    obtain ⟨t, ht⟩ : w ++ ['"', '\n'] <+: List.replicate 2 '"' ++ c := by
      apply List.prefix_of_prefix_length_le hleft hright
      simp only [List.length_append, List.length_replicate, List.length_cons, List.length_nil]
      omega
    use t
    have hall : (w ++ ['"', '\n']) ++ rest =
        (w ++ ['"', '\n']) ++ (t ++ '"' :: '"' :: '"' :: rest') := by
      rw [← List.append_assoc _ t, ht]
      simpa using hsplit
    exact List.append_cancel_left hall

/-! ## What a text weighs -/

def Node.weight : Node → ℕ
  | .string w => w.length + 2
  | .array => 2
  | .table => 0
  | _ => 1

/-- The last key of a path, with the sign after it. -/
def pathWeight (p : Path) : ℕ :=
  match p.getLast? with
  | some (.key k) => k.length + 1
  | _ => 0

def weight (nodes : Nodes) : ℕ := (nodes.map fun e => pathWeight e.1 + e.2.weight).sum

def keysWeight (keys : List Key) : ℕ := (keys.map fun k => k.length + 1).sum

@[simp] theorem pathWeight_key (p : Path) (k : Key) : pathWeight (p ++ [.key k]) = k.length + 1 := by
  simp [pathWeight]

@[simp] theorem pathWeight_item (p : Path) (i : ℕ) : pathWeight (p ++ [.item i]) = 0 := by
  simp [pathWeight]

theorem pathWeight_append (p : Path) {q : Path} (h : q ≠ []) :
    pathWeight (p ++ q) = pathWeight q := by
  rw [pathWeight, pathWeight, List.getLast?_append_of_ne_nil p h]

@[simp] theorem weight_nil : weight [] = 0 := rfl

@[simp] theorem weight_cons (e : Path × Node) (nodes : Nodes) :
    weight (e :: nodes) = pathWeight e.1 + e.2.weight + weight nodes := by
  simp [weight]

@[simp] theorem weight_append (a b : Nodes) : weight (a ++ b) = weight a + weight b := by
  simp [weight]

theorem weight_perm {a b : Nodes} (h : a.Perm b) : weight a = weight b :=
  (h.map _).sum_eq

@[simp] theorem keysWeight_cons (k : Key) (ks : List Key) :
    keysWeight (k :: ks) = k.length + 1 + keysWeight ks := by
  simp [keysWeight]

/-- The node of the value itself comes first, and no other has its path. -/
def Rooted (value : Nodes) : Prop := ∃ n below, value = ([], n) :: below ∧ ∀ e ∈ below, e.1 ≠ []

theorem rooted_leaf (n : Node) : Rooted (leaf n) := ⟨n, [], rfl, nofun⟩

theorem weight_map_append {p : Path} {nodes : Nodes} (h : ∀ e ∈ nodes, e.1 ≠ []) :
    weight (nodes.map fun e => (p ++ e.1, e.2)) = weight nodes := by
  induction nodes with
  | nil => rfl
  | cons e nodes ih =>
    rw [List.map_cons, weight_cons, weight_cons, pathWeight_append p (h e List.mem_cons_self),
      ih fun e he => h e (List.mem_cons_of_mem _ he)]

/-- A value under a path weighs what the path and the value do. -/
theorem Rooted.weight_map_append {value : Nodes} (h : Rooted value) (p : Path) :
    weight (value.map fun e => (p ++ e.1, e.2)) = pathWeight p + weight value := by
  obtain ⟨n, below, rfl, hbelow⟩ := h
  rw [List.map_cons, weight_cons, weight_cons, Toml.weight_map_append hbelow, List.append_nil]
  have hroot : pathWeight [] = 0 := rfl
  dsimp only
  omega

/-! ## A document grows -/

/-- The document keeps its nodes and gets new ones, none of them the root, of no more than the
weight. -/
def Grows (d d' : Doc) (n : ℕ) : Prop :=
  ∃ new, d'.nodes = d.nodes ++ new ∧ (∀ e ∈ new, e.1 ≠ []) ∧ weight new ≤ n

theorem Grows.refl (d : Doc) (n : ℕ) : Grows d d n := ⟨[], by simp, nofun, Nat.zero_le n⟩

theorem Grows.trans {d d' d'' : Doc} {m n : ℕ} (h : Grows d d' m) (h' : Grows d' d'' n) :
    Grows d d'' (m + n) := by
  obtain ⟨a, ha, hpaths, hweight⟩ := h
  obtain ⟨b, hb, hpaths', hweight'⟩ := h'
  refine ⟨a ++ b, by rw [hb, ha, List.append_assoc], ?_, ?_⟩
  · intro e he
    exact (List.mem_append.mp he).elim (hpaths e) (hpaths' e)
  · rw [weight_append]
    omega

theorem Grows.mono {d d' : Doc} {m n : ℕ} (h : Grows d d' m) (hmn : m ≤ n) : Grows d d' n := by
  obtain ⟨new, hnew, hpaths, hweight⟩ := h
  exact ⟨new, hnew, hpaths, hweight.trans hmn⟩

theorem Grows.weight_le {d d' : Doc} {n : ℕ} (h : Grows d d' n) :
    weight d'.nodes ≤ weight d.nodes + n := by
  obtain ⟨new, hnew, -, hweight⟩ := h
  rw [hnew, weight_append]
  omega

theorem Grows.mem {d d' : Doc} {n : ℕ} (h : Grows d d' n) {e : Path × Node} (he : e ∈ d.nodes) :
    e ∈ d'.nodes := by
  obtain ⟨new, hnew, -⟩ := h
  rw [hnew]
  exact List.mem_append_left new he

namespace Doc

theorem enterDotted_grows {d d' : Doc} {q r : Path} (hq : q ≠ [])
    (h : d.enterDotted q = some (r, d')) : Grows d d' (pathWeight q) := by
  unfold enterDotted at h
  split at h
  · obtain ⟨rfl, rfl⟩ := Prod.mk.inj (Option.some.inj h)
    exact ⟨[(q, .table)], rfl, by simpa using hq, by simp [Node.weight]⟩
  · split_ifs at h
    obtain ⟨rfl, rfl⟩ := Prod.mk.inj (Option.some.inj h)
    exact (Grows.refl d 0).mono (Nat.zero_le _)
  · cases h

theorem enterHeader_grows {d d' : Doc} {q r : Path} (hq : q ≠ [])
    (h : d.enterHeader q = some (r, d')) : Grows d d' (pathWeight q) := by
  unfold enterHeader at h
  split at h
  · obtain ⟨rfl, rfl⟩ := Prod.mk.inj (Option.some.inj h)
    exact ⟨[(q, .table)], rfl, by simpa using hq, by simp [Node.weight]⟩
  · split_ifs at h
    obtain ⟨rfl, rfl⟩ := Prod.mk.inj (Option.some.inj h)
    exact Grows.refl d _
  · split_ifs at h
    obtain ⟨rfl, rfl⟩ := Prod.mk.inj (Option.some.inj h)
    exact Grows.refl d _
  · cases h

theorem put_grows {d d' : Doc} {q : Path} {value : Nodes} (hvalue : Rooted value) (hq : q ≠ [])
    (h : put value d q = some d') : Grows d d' (pathWeight q + weight value) := by
  unfold put at h
  split at h
  · obtain rfl := Option.some.inj h
    refine ⟨value.map fun e => (q ++ e.1, e.2), rfl, ?_, (hvalue.weight_map_append q).le⟩
    intro e he
    obtain ⟨x, -, rfl⟩ := List.mem_map.mp he
    exact List.append_ne_nil_of_left_ne_nil hq x.1
  · cases h

theorem define_grows {d d' : Doc} {q : Path} (hq : q ≠ []) (h : d.define q = some d') :
    Grows d d' (pathWeight q + 0) := by
  unfold define at h
  split at h
  · obtain rfl := Option.some.inj h
    exact ⟨[(q, .table)], rfl, by simpa using hq, by simp [Node.weight]⟩
  · split_ifs at h
    obtain rfl := Option.some.inj h
    exact Grows.refl d _
  · cases h

theorem append_grows {d d' : Doc} {q : Path} (hq : q ≠ []) (h : d.append q = some d') :
    Grows d d' (pathWeight q + 2) := by
  unfold append at h
  split at h
  · obtain rfl := Option.some.inj h
    exact ⟨[(q, .array), (q ++ [.item 0], .table)], rfl, by simp [hq], by simp [Node.weight]⟩
  · split_ifs at h
    obtain rfl := Option.some.inj h
    exact ⟨[(q ++ [.item (d.size q)], .table)], rfl, by simp, by simp [Node.weight]⟩
  · cases h

/-- Along keys, a document grows by what they weigh and by what the last step adds. -/
theorem descend_grows {enter : Doc → Path → Option (Path × Doc)} {last : Doc → Path → Option Doc}
    {n : ℕ} (henter : ∀ {d d' q r}, q ≠ [] → enter d q = some (r, d') → Grows d d' (pathWeight q))
    (hlast : ∀ {d d' q}, q ≠ [] → last d q = some d' → Grows d d' (pathWeight q + n))
    {d d' : Doc} {p : Path} {keys : List Key} (h : descend enter last d p keys = some d') :
    Grows d d' (keysWeight keys + n) := by
  induction keys generalizing d p with
  | nil => cases h
  | cons k keys ih =>
    have hq : p ++ [Seg.key k] ≠ [] := by simp
    cases keys with
    | nil =>
      have hgrows := hlast hq h
      rw [pathWeight_key] at hgrows
      exact hgrows
    | cons k' keys =>
      rw [descend] at h
      · obtain ⟨⟨q, d₁⟩, henter₁, h⟩ := Option.bind_eq_some_iff.mp h
        have hgrows := (henter hq henter₁).trans (ih h)
        rw [pathWeight_key] at hgrows
        rw [keysWeight_cons, Nat.add_assoc]
        exact hgrows
      · exact nofun

theorem assign_grows {d d' : Doc} {keys : List Key} {value : Nodes} (hvalue : Rooted value)
    (h : d.assign keys value = some d') : Grows d d' (keysWeight keys + weight value) :=
  descend_grows enterDotted_grows (put_grows hvalue) h

theorem header_grows {d d' : Doc} {keys : List Key} (h : d.header keys = some d') :
    Grows d d' (keysWeight keys) :=
  descend_grows (d := d.endSection) enterHeader_grows define_grows h

theorem arrayHeader_grows {d d' : Doc} {keys : List Key} (h : d.arrayHeader keys = some d') :
    Grows d d' (keysWeight keys + 2) :=
  descend_grows (d := d.endSection) enterHeader_grows append_grows h

end Doc

/-! ## What reading takes -/

/-- What is left of a text is shorter than the text by at least the cost of what was read. -/
def Takes {α : Type} (read : Reader α) (cost : α → ℕ) : Prop :=
  ∀ {s a rest}, read s = some (a, rest) → cost a + rest.length ≤ s.length

theorem length_skipWs_le (s : List Char) : (skipWs s).length ≤ s.length :=
  (List.dropWhile_sublist _).length_le

theorem length_skipComment_le (s : List Char) : (skipComment s).length ≤ s.length := by
  unfold skipComment
  split
  · exact (List.dropWhile_sublist _).length_le.trans (Nat.le_succ _)
  · exact le_rfl

theorem length_skipLines_le (comment : Bool) (s : List Char) :
    (skipLines comment s).length ≤ s.length := by
  induction s generalizing comment with
  | nil => exact le_rfl
  | cons c s ih =>
    rw [skipLines]
    split_ifs
    · exact (ih false).trans (Nat.le_succ _)
    · exact (ih true).trans (Nat.le_succ _)
    · exact (ih false).trans (Nat.le_succ _)
    · exact (ih true).trans (Nat.le_succ _)
    · exact le_rfl

theorem length_newline {s rest : List Char} (h : newline s = some rest) :
    rest.length < s.length := by
  unfold newline at h
  split at h
  · obtain rfl := Option.some.inj h
    exact Nat.lt_succ_self _
  · obtain rfl := Option.some.inj h
    exact Nat.lt_succ_of_lt (Nat.lt_succ_self _)
  · cases h

theorem takes_body (quote : Char) (multi : Bool) (mode : Mode) :
    Takes (body quote multi mode) fun w => w.length + 1 := by
  intro s w rest h
  obtain ⟨c, rfl, hlength, -⟩ := body_shape h
  have hwidth : 1 ≤ width multi := by cases multi <;> decide
  simp only [List.length_append, List.length_replicate]
  omega

theorem takes_string (quote : Char) : Takes (string quote) fun w => w.length + 1 := by
  intro s w rest h
  rcases string_shape h with hbody | ⟨c, rfl, hlength⟩
  · exact takes_body quote false _ hbody
  · simp only [List.length_append, List.length_replicate]
    omega

theorem takes_simpleKey : Takes simpleKey List.length := by
  intro s k rest h
  unfold simpleKey at h
  split at h
  · have htakes : k.length + 1 + rest.length ≤ _ := takes_body _ _ _ h
    rw [List.length_cons]
    omega
  · have htakes : k.length + 1 + rest.length ≤ _ := takes_body _ _ _ h
    rw [List.length_cons]
    omega
  · split_ifs at h
    obtain ⟨rfl, rfl⟩ := Prod.mk.inj (Option.some.inj h)
    rw [← List.length_append, List.takeWhile_append_dropWhile]

section Separated

variable {α : Type} {read : Reader α} {cost : α → ℕ} {skip : List Char → List Char} {sep : Char}
  {stop : Option Char}

/-- With its separators, what is read in a row takes one character more for each but one. -/
theorem takes_sepBy (hread : Takes read cost) (hskip : ∀ s, (skip s).length ≤ s.length) {n : ℕ}
    {s rest : List Char} {as : List α} (h : sepBy read skip sep stop n s = some (as, rest)) :
    (as.map fun a => cost a + 1).sum + rest.length ≤ s.length + 1 ∧ as ≠ [] := by
  induction n generalizing s as with
  | zero => cases h
  | succ n ih =>
    rw [sepBy] at h
    obtain ⟨⟨a, s₁⟩, hfirst, h⟩ := Option.bind_eq_some_iff.mp h
    have htakes := hread hfirst
    have hle := hskip s₁
    dsimp only at h
    split at h
    · obtain ⟨rfl, rfl⟩ := Prod.mk.inj (Option.some.inj h)
      simp only [List.map_cons, List.map_nil, List.sum_cons, List.sum_nil, List.length_nil]
      exact ⟨by omega, List.cons_ne_nil _ _⟩
    · rename_i c s₂ hskipped
      have hle₂ := hskip s₂
      rw [hskipped, List.length_cons] at hle
      split_ifs at h with hsep hstop
      · obtain ⟨rfl, rfl⟩ := Prod.mk.inj (Option.some.inj h)
        simp only [List.map_cons, List.map_nil, List.sum_cons, List.sum_nil]
        exact ⟨by omega, List.cons_ne_nil _ _⟩
      · obtain ⟨⟨as', rest'⟩, hrest, h⟩ := Option.bind_eq_some_iff.mp h
        obtain ⟨rfl, rfl⟩ := Prod.mk.inj (Option.some.inj h)
        have htail : (as'.map fun a => cost a + 1).sum + rest'.length ≤ (skip s₂).length + 1 :=
          (ih hrest).1
        rw [List.map_cons, List.sum_cons]
        dsimp only
        exact ⟨by omega, List.cons_ne_nil _ _⟩
      · obtain ⟨rfl, rfl⟩ := Prod.mk.inj (Option.some.inj h)
        simp only [List.map_cons, List.map_nil, List.sum_cons, List.sum_nil, List.length_cons]
        exact ⟨by omega, List.cons_ne_nil _ _⟩

/-- Leaving the separators out of account. -/
theorem takes_sepBy_sum (hread : Takes read cost) (hskip : ∀ s, (skip s).length ≤ s.length)
    (n : ℕ) : Takes (sepBy read skip sep stop n) fun as => (as.map cost).sum := by
  intro s as rest h
  obtain ⟨htakes, hne⟩ := takes_sepBy hread hskip h
  rw [List.sum_map_add, List.map_const', List.sum_replicate, smul_eq_mul, mul_one] at htakes
  have := List.length_pos_of_ne_nil hne
  dsimp only
  omega

end Separated

theorem takes_dottedKey {s rest : List Char} {keys : List Key}
    (h : dottedKey s = some (keys, rest)) : keysWeight keys + rest.length ≤ s.length + 1 :=
  (takes_sepBy takes_simpleKey length_skipWs_le h).1

theorem word_weight {token : List Char} {n : Node} (h : word token = some n) :
    n.weight = 1 ∧ 0 < token.length := by
  constructor
  · unfold word at h
    repeat' split at h
    all_goals cases h <;> rfl
  · cases token with
    | nil => cases h
    | cons c token => exact Nat.succ_pos _

theorem takes_scalar : Takes scalar Node.weight := by
  intro s n rest h
  have hsplit := congrArg List.length (@List.takeWhile_append_dropWhile _ isScalarChar s)
  rw [List.length_append] at hsplit
  dsimp only [scalar] at h
  split_ifs at h with hdate
  · obtain ⟨rfl, rfl⟩ := Prod.mk.inj (Option.some.inj h)
    have hpos : 0 < (s.takeWhile isScalarChar).length := by
      apply List.length_pos_of_ne_nil
      intro hnil
      rw [hnil] at hdate
      cases hdate
    have hle : ((s.dropWhile isScalarChar).tail.dropWhile isScalarChar).length ≤
        (s.dropWhile isScalarChar).tail.length := (List.dropWhile_sublist _).length_le
    rw [List.length_tail] at hle
    change 1 + _ ≤ _
    omega
  · obtain ⟨m, hword, heq⟩ := Option.map_eq_some_iff.mp h
    obtain ⟨rfl, rfl⟩ := Prod.mk.inj heq
    obtain ⟨hweight, hpos⟩ := word_weight hword
    omega

/-- A reader of values takes what they weigh, and reads the value itself first. -/
structure ReadsValues (read : Reader Nodes) : Prop where
  takes : Takes read weight
  rooted : ∀ {s value rest}, read s = some (value, rest) → Rooted value

theorem ReadsValues.takes_keyval {read : Reader Nodes} (h : ReadsValues read) :
    Takes (keyval read) fun pair => keysWeight pair.1 + weight pair.2 := by
  intro s pair rest hread
  obtain ⟨⟨keys, s₁⟩, hkeys, hread⟩ := Option.bind_eq_some_iff.mp hread
  have hkeysTake := takes_dottedKey hkeys
  have hle := length_skipWs_le s₁
  dsimp only at hread
  split at hread
  · rename_i s₂ hs₂
    obtain ⟨⟨value, s₃⟩, hvalue, hread⟩ := Option.bind_eq_some_iff.mp hread
    obtain ⟨rfl, rfl⟩ := Prod.mk.inj (Option.some.inj hread)
    have hvalueTake := h.takes hvalue
    have hle₂ := length_skipWs_le s₂
    rw [hs₂, List.length_cons] at hle
    dsimp only
    omega
  · cases hread

theorem ReadsValues.rooted_keyval {read : Reader Nodes} (h : ReadsValues read)
    {s rest : List Char} {pair : List Key × Nodes} (hread : keyval read s = some (pair, rest)) :
    Rooted pair.2 := by
  obtain ⟨⟨keys, s₁⟩, -, hread⟩ := Option.bind_eq_some_iff.mp hread
  dsimp only at hread
  split at hread
  · obtain ⟨⟨value, s₃⟩, hvalue, hread⟩ := Option.bind_eq_some_iff.mp hread
    obtain ⟨rfl, rfl⟩ := Prod.mk.inj (Option.some.inj hread)
    exact h.rooted hvalue
  · cases hread

theorem weight_itemNodes (values : List Nodes) :
    weight (itemNodes values) = (values.map weight).sum := by
  have hitem (i : ℕ) (v : Nodes) :
      weight (v.map fun e => (Seg.item i :: e.1, e.2)) = weight v := by
    induction v with
    | nil => rfl
    | cons e v ih =>
      have hpath : pathWeight (Seg.item i :: e.1) = pathWeight e.1 := by
        obtain ⟨p, n⟩ := e
        cases p <;> simp [pathWeight]
      rw [List.map_cons, weight_cons, weight_cons, ih, hpath]
  have hfrom (k : ℕ) :
      weight ((values.zipIdx k).flatMap fun x => x.1.map fun e => (Seg.item x.2 :: e.1, e.2)) =
        (values.map weight).sum := by
    induction values generalizing k with
    | nil => rfl
    | cons v values ih =>
      rw [List.zipIdx_cons, List.flatMap_cons, weight_append, ih, hitem, List.map_cons,
        List.sum_cons]
  exact hfrom 0

theorem array_takes {read : Reader Nodes} (hread : ReadsValues read) {s rest : List Char}
    {value : Nodes} (h : array read s = some (value, rest)) :
    weight value + rest.length ≤ s.length + 1 ∧ Rooted value := by
  have hleaf : weight (leaf .array) = 2 := rfl
  have hle := length_skipLines_le false s
  unfold array at h
  split at h
  · rename_i s₁ hs₁
    obtain ⟨rfl, rfl⟩ := Prod.mk.inj (Option.some.inj h)
    rw [hs₁, List.length_cons] at hle
    exact ⟨by omega, rooted_leaf _⟩
  · obtain ⟨⟨values, s₁⟩, hvalues, h⟩ := Option.bind_eq_some_iff.mp h
    have htakes := takes_sepBy_sum hread.takes (length_skipLines_le false) _ hvalues
    dsimp only at h
    split at h
    · obtain ⟨rfl, rfl⟩ := Prod.mk.inj (Option.some.inj h)
      rw [weight_append, weight_itemNodes, hleaf]
      rw [List.length_cons] at htakes
      dsimp only at htakes
      refine ⟨by omega, .array, _, rfl, ?_⟩
      intro e he
      obtain ⟨x, -, hx⟩ := List.mem_flatMap.mp he
      obtain ⟨y, -, rfl⟩ := List.mem_map.mp hx
      exact List.cons_ne_nil _ _
    · cases h

/-- Pairs that are put into a document one after another. -/
theorem foldlM_assign_grows {pairs : List (List Key × Nodes)} {d d' : Doc}
    (hrooted : ∀ pair ∈ pairs, Rooted pair.2)
    (h : pairs.foldlM (fun d pair => d.assign pair.1 pair.2) d = some d') :
    Grows d d' (pairs.map fun pair => keysWeight pair.1 + weight pair.2).sum := by
  induction pairs generalizing d with
  | nil =>
    obtain rfl := Option.some.inj h
    exact Grows.refl d 0
  | cons pair pairs ih =>
    rw [List.foldlM_cons] at h
    obtain ⟨d₁, hassign, h⟩ := Option.bind_eq_some_iff.mp h
    have hfirst := Doc.assign_grows (hrooted pair List.mem_cons_self) hassign
    exact hfirst.trans (ih (fun p hp => hrooted p (List.mem_cons_of_mem _ hp)) h)

theorem sepBy_all {α : Type} {read : Reader α} {P : α → Prop} {skip : List Char → List Char}
    {sep : Char} {stop : Option Char} (hread : ∀ {s a rest}, read s = some (a, rest) → P a) {n : ℕ}
    {s rest : List Char} {as : List α} (h : sepBy read skip sep stop n s = some (as, rest)) :
    ∀ a ∈ as, P a := by
  induction n generalizing s as with
  | zero => cases h
  | succ n ih =>
    rw [sepBy] at h
    obtain ⟨⟨a, s₁⟩, hfirst, h⟩ := Option.bind_eq_some_iff.mp h
    have ha : P a := hread hfirst
    dsimp only at h
    split at h
    · obtain ⟨rfl, rfl⟩ := Prod.mk.inj (Option.some.inj h)
      simpa using ha
    · split_ifs at h
      · obtain ⟨rfl, rfl⟩ := Prod.mk.inj (Option.some.inj h)
        simpa using ha
      · obtain ⟨⟨as', rest'⟩, hrest, h⟩ := Option.bind_eq_some_iff.mp h
        obtain ⟨rfl, rfl⟩ := Prod.mk.inj (Option.some.inj h)
        exact List.forall_mem_cons.mpr ⟨ha, ih hrest⟩
      · obtain ⟨rfl, rfl⟩ := Prod.mk.inj (Option.some.inj h)
        simpa using ha

theorem inlineTable_takes {read : Reader Nodes} (hread : ReadsValues read) {s rest : List Char}
    {value : Nodes} (h : inlineTable read s = some (value, rest)) :
    weight value + rest.length ≤ s.length ∧ Rooted value := by
  have hle := length_skipWs_le s
  unfold inlineTable at h
  split at h
  · rename_i s₁ hs₁
    obtain ⟨rfl, rfl⟩ := Prod.mk.inj (Option.some.inj h)
    rw [hs₁, List.length_cons] at hle
    have hleaf : weight (leaf .table) = 0 := rfl
    exact ⟨by omega, rooted_leaf _⟩
  · obtain ⟨⟨pairs, s₁⟩, hpairs, h⟩ := Option.bind_eq_some_iff.mp h
    have htakes := takes_sepBy_sum hread.takes_keyval length_skipWs_le _ hpairs
    dsimp only at h
    split at h
    · obtain ⟨d, hd, h⟩ := Option.bind_eq_some_iff.mp h
      obtain ⟨rfl, rfl⟩ := Prod.mk.inj (Option.some.inj h)
      obtain ⟨new, hnew, hpaths, hweight⟩ :=
        foldlM_assign_grows (sepBy_all hread.rooted_keyval hpairs) hd
      have hroot : weight (d.nodes) = weight new := by
        rw [hnew, weight_append]
        exact Nat.zero_add _
      rw [List.length_cons] at htakes
      dsimp only at htakes
      exact ⟨by omega, .table, new, hnew, hpaths⟩
    · cases h

theorem readsValues_value (n : ℕ) : ReadsValues (value n) := by
  have hvalue : ∀ {s v rest}, value n s = some (v, rest) →
      weight v + rest.length ≤ s.length ∧ Rooted v := by
    induction n with
    | zero => nofun
    | succ n ih =>
      have hread : ReadsValues (value n) := ⟨fun h => (ih h).1, fun h => (ih h).2⟩
      intro s v rest h
      have hstring {quote : Char} {s : List Char}
          (h : (string quote s).map (fun x => (leaf (.string x.1), x.2)) = some (v, rest)) :
          weight v + rest.length ≤ s.length + 1 ∧ Rooted v := by
        obtain ⟨⟨w, s₁⟩, hw, heq⟩ := Option.map_eq_some_iff.mp h
        obtain ⟨rfl, rfl⟩ := Prod.mk.inj heq
        have htakes : w.length + 1 + s₁.length ≤ s.length := takes_string quote hw
        have hleaf : weight (leaf (.string w)) = w.length + 2 := by
          simp [leaf, Node.weight, pathWeight]
        exact ⟨by dsimp only; omega, rooted_leaf _⟩
      rw [value.eq_def] at h
      dsimp only at h
      split at h
      · exact hstring h
      · exact hstring h
      · exact array_takes hread h
      · obtain ⟨htakes, hrooted⟩ := inlineTable_takes hread h
        exact ⟨htakes.trans (Nat.le_succ _), hrooted⟩
      · obtain ⟨⟨m, s₁⟩, hscalar, heq⟩ := Option.map_eq_some_iff.mp h
        obtain ⟨rfl, rfl⟩ := Prod.mk.inj heq
        have htakes := takes_scalar hscalar
        have hleaf : weight (leaf m) = m.weight := by simp [leaf, pathWeight]
        exact ⟨by dsimp only; omega, rooted_leaf _⟩
  exact ⟨fun h => (hvalue h).1, fun h => (hvalue h).2⟩

/-! ### Statements -/

theorem statement_grows {d d' : Doc} {s rest : List Char} (h : statement d s = some (d', rest)) :
    ∃ n, Grows d d' n ∧ n + rest.length ≤ s.length := by
  unfold statement at h
  split at h
  · rename_i s₁
    obtain ⟨⟨keys, s₂⟩, hkeys, h⟩ := Option.bind_eq_some_iff.mp h
    have htakes := takes_dottedKey hkeys
    have hle := length_skipWs_le s₁
    have hle₂ := length_skipWs_le s₂
    dsimp only at h
    split at h
    · rename_i s₃ hs₃
      obtain ⟨d₁, hd, heq⟩ := Option.map_eq_some_iff.mp h
      obtain ⟨rfl, rfl⟩ := Prod.mk.inj heq
      refine ⟨_, Doc.arrayHeader_grows hd, ?_⟩
      simp only [hs₃, List.length_cons] at hle₂ ⊢
      omega
    · cases h
  · rename_i s₁ _
    obtain ⟨⟨keys, s₂⟩, hkeys, h⟩ := Option.bind_eq_some_iff.mp h
    have htakes := takes_dottedKey hkeys
    have hle := length_skipWs_le s₁
    have hle₂ := length_skipWs_le s₂
    dsimp only at h
    split at h
    · rename_i s₃ hs₃
      obtain ⟨d₁, hd, heq⟩ := Option.map_eq_some_iff.mp h
      obtain ⟨rfl, rfl⟩ := Prod.mk.inj heq
      refine ⟨_, Doc.header_grows hd, ?_⟩
      simp only [hs₃, List.length_cons] at hle₂ ⊢
      omega
    · cases h
  · obtain ⟨⟨pair, s₂⟩, hpair, h⟩ := Option.bind_eq_some_iff.mp h
    obtain ⟨d₁, hd, heq⟩ := Option.map_eq_some_iff.mp h
    obtain ⟨rfl, rfl⟩ := Prod.mk.inj heq
    have hread := readsValues_value (s.length + 1)
    exact ⟨_, Doc.assign_grows (hread.rooted_keyval hpair) hd, hread.takes_keyval hpair⟩

theorem line_grows {d d' : Doc} {s rest : List Char} (h : line d s = some (d', rest)) :
    ∃ n, Grows d d' n ∧ n + rest.length ≤ s.length := by
  have hle := length_skipWs_le s
  unfold line at h
  split_ifs at h
  · obtain ⟨rfl, rfl⟩ := Prod.mk.inj (Option.some.inj h)
    exact ⟨0, Grows.refl _ 0, by omega⟩
  · obtain ⟨n, hgrows, hn⟩ := statement_grows h
    exact ⟨n, hgrows, hn.trans hle⟩

/-- Reading a document adds no more to it than the text is long. -/
theorem document_grows {n : ℕ} {d d' : Doc} {s : List Char} (h : document n d s = some d') :
    Grows d d' s.length := by
  induction n generalizing d s with
  | zero => cases h
  | succ n ih =>
    obtain ⟨⟨d₁, s₁⟩, hline, h⟩ := Option.bind_eq_some_iff.mp h
    obtain ⟨m, hgrows, hm⟩ := line_grows hline
    have hle := (length_skipComment_le (skipWs s₁)).trans (length_skipWs_le s₁)
    dsimp only at h
    split at h
    · obtain rfl := Option.some.inj h
      exact hgrows.mono (by omega)
    · obtain ⟨s₂, hnewline, h⟩ := Option.bind_eq_some_iff.mp h
      have hlt := length_newline hnewline
      exact (hgrows.trans (ih h)).mono (by omega)

/-! ## Rounds -/

section Rounds

variable {α : Type} {read read' : Reader α} {cost : α → ℕ} {skip : List Char → List Char}
  {sep : Char} {stop : Option Char}

/-- More rounds than the text has characters are as good as any. -/
theorem sepBy_rounds (hread : Takes read cost) (hskip : ∀ s, (skip s).length ≤ s.length) {m n : ℕ}
    {s : List Char} (hm : s.length < m) (hn : s.length < n) :
    sepBy read skip sep stop m s = sepBy read skip sep stop n s := by
  induction m generalizing n s with
  | zero => omega
  | succ m ih =>
    cases n with
    | zero => omega
    | succ n =>
      rw [sepBy, sepBy]
      cases hfirst : read s with
      | none => rfl
      | some x =>
        have htakes := hread hfirst
        have hle := hskip x.2
        simp only [Option.bind_eq_bind, Option.bind_some]
        split
        · rfl
        · rename_i c s₂ hskipped
          have hle₂ := hskip s₂
          rw [hskipped, List.length_cons] at hle
          rw [ih (n := n) (s := skip s₂) (by omega) (by omega)]

theorem sepBy_congr (hread : Takes read cost) (hskip : ∀ s, (skip s).length ≤ s.length) {n : ℕ}
    {s : List Char} (h : ∀ t, t.length ≤ s.length → read t = read' t) :
    sepBy read skip sep stop n s = sepBy read' skip sep stop n s := by
  induction n generalizing s with
  | zero => rfl
  | succ n ih =>
    rw [sepBy, sepBy, ← h s le_rfl]
    cases hfirst : read s with
    | none => rfl
    | some x =>
      have htakes := hread hfirst
      have hle := hskip x.2
      simp only [Option.bind_eq_bind, Option.bind_some]
      split
      · rfl
      · rename_i c s₂ hskipped
        have hle₂ := hskip s₂
        rw [hskipped, List.length_cons] at hle
        rw [ih (s := skip s₂) fun t ht => h t (by omega)]

end Rounds

theorem keyval_congr {read read' : Reader Nodes} {s : List Char}
    (h : ∀ t, t.length ≤ s.length → read t = read' t) : keyval read s = keyval read' s := by
  unfold keyval
  cases hkeys : dottedKey s with
  | none => rfl
  | some x =>
    have htakes := takes_dottedKey hkeys
    have hle := length_skipWs_le x.2
    simp only [Option.bind_eq_bind, Option.bind_some]
    split
    · rename_i s₂ hs₂
      have hle₂ := length_skipWs_le s₂
      rw [hs₂, List.length_cons] at hle
      rw [h (skipWs s₂) (by omega)]
    · rfl

theorem array_congr {read read' : Reader Nodes} (hread : ReadsValues read) {s : List Char}
    (h : ∀ t, t.length ≤ s.length → read t = read' t) : array read s = array read' s := by
  have hle := length_skipLines_le false s
  unfold array
  split
  · rfl
  · rw [sepBy_congr hread.takes (length_skipLines_le false) fun t ht => h t (ht.trans hle)]

theorem inlineTable_congr {read read' : Reader Nodes} (hread : ReadsValues read) {s : List Char}
    (h : ∀ t, t.length ≤ s.length → read t = read' t) :
    inlineTable read s = inlineTable read' s := by
  have hle := length_skipWs_le s
  unfold inlineTable
  split
  · rfl
  · rw [sepBy_congr hread.takes_keyval length_skipWs_le fun t ht =>
      keyval_congr fun u hu => h u (hu.trans (ht.trans hle))]

theorem value_rounds {m n : ℕ} {s : List Char} (hm : s.length < m) (hn : s.length < n) :
    value m s = value n s := by
  induction m generalizing n s with
  | zero => omega
  | succ m ih =>
    cases n with
    | zero => omega
    | succ n =>
      rw [value.eq_def, value.eq_def]
      dsimp only
      split
      · rfl
      · rfl
      · rw [List.length_cons] at hm hn
        exact array_congr (readsValues_value m) fun t ht => ih (by omega) (by omega)
      · rw [List.length_cons] at hm hn
        exact inlineTable_congr (readsValues_value m) fun t ht => ih (by omega) (by omega)
      · rfl

theorem document_rounds {m n : ℕ} {d : Doc} {s : List Char} (hm : s.length < m)
    (hn : s.length < n) : document m d s = document n d s := by
  induction m generalizing n d s with
  | zero => omega
  | succ m ih =>
    cases n with
    | zero => omega
    | succ n =>
      rw [document, document]
      cases hline : line d s with
      | none => rfl
      | some x =>
        obtain ⟨d₁, s₁⟩ := x
        obtain ⟨k, -, hk⟩ := line_grows hline
        have hle := (length_skipComment_le (skipWs s₁)).trans (length_skipWs_le s₁)
        simp only [Option.bind_eq_bind, Option.bind_some]
        split
        · rfl
        · cases hnewline : newline (skipComment (skipWs s₁)) with
          | none => rfl
          | some s₂ =>
            have hlt := length_newline hnewline
            exact ih (by omega) (by omega)

theorem document_succ {n : ℕ} {d f : Doc} {s : List Char} (h : document n d s = some f) :
    document (n + 1) d s = some f := by
  induction n generalizing d s with
  | zero => cases h
  | succ n ih =>
    rw [document] at h ⊢
    obtain ⟨⟨d₁, s₁⟩, hline, h⟩ := Option.bind_eq_some_iff.mp h
    rw [hline]
    simp only [Option.bind_eq_bind, Option.bind_some]
    dsimp only at h
    split at h
    · exact h
    · obtain ⟨s₂, hnewline, h⟩ := Option.bind_eq_some_iff.mp h
      rw [hnewline]
      exact ih h

/-- The text leads from one document to the other. -/
def Reads (d : Doc) (s : List Char) (f : Doc) : Prop := ∃ n, document n d s = some f

theorem Reads.document_eq {d f : Doc} {s : List Char} (h : Reads d s f) {n : ℕ}
    (hn : s.length < n) : document n d s = some f := by
  obtain ⟨m, hm⟩ := h
  have hlarge (k : ℕ) : document (m + k) d s = some f := by
    induction k with
    | zero => exact hm
    | succ k ih => exact document_succ ih
  rw [document_rounds hn (show s.length < m + n by omega)]
  exact hlarge n

theorem Reads.grows {d f : Doc} {s : List Char} (h : Reads d s f) : Grows d f s.length :=
  document_grows (h.document_eq (Nat.lt_succ_self _))

theorem reads_nil {d f : Doc} : Reads d [] f ↔ d = f := by
  constructor
  · intro h
    exact Option.some.inj (h.document_eq (Nat.zero_lt_succ 0))
  · rintro rfl
    exact ⟨1, rfl⟩

/-- A line that is read leaves the rest of the text. -/
theorem reads_iff {d d' f : Doc} {s rest : List Char}
    (h : ∀ n, document (n + 1) d s = document n d' rest) : Reads d s f ↔ Reads d' rest f := by
  constructor
  · rintro ⟨n, hn⟩
    cases n with
    | zero => cases hn
    | succ n => exact ⟨n, (h n).symm.trans hn⟩
  · rintro ⟨n, hn⟩
    exact ⟨n + 1, (h n).trans hn⟩

theorem parse_eq_some_iff {s : List Char} {nodes : Nodes} :
    parse s = some nodes ↔ ∃ f, Reads {} s f ∧ f.nodes = nodes := by
  rw [parse, Option.map_eq_some_iff]
  constructor
  · rintro ⟨f, hf, hnodes⟩
    exact ⟨f, ⟨_, hf⟩, hnodes⟩
  · rintro ⟨f, hf, hnodes⟩
    exact ⟨f, hf.document_eq (Nat.lt_succ_self _), hnodes⟩

end AgentExchange.Library.Toml
