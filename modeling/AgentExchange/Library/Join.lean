import AgentExchange.Library.Program

/-!
# Programs that are joined

`JoinRuns` runs several programs at once, polled in any order; each of them has its own
events. Once all have returned, their results are those of the programs run one after
the other, so a model may run them in sequence.
-/
namespace AgentExchange.Library

namespace Program

variable {S : Signature} {ε α β : Type}

/-! ## Sequences of events -/

theorem Runs.trans {p q q' : Program S ε α} {es es' : List (Event S)} (h : Runs p es q)
    (h' : Runs q es' q') : Runs p (es ++ es') q' := by
  induction h' with
  | start => simpa using h
  | next r _ ih =>
    rw [← List.append_assoc]
    exact .next r ih

theorem Runs.bind_left {p p' : Program S ε α} {f : α → Program S ε β} {es : List (Event S)}
    (h : Runs p es p') : Runs (p >>= f) es (p' >>= f) := by
  induction h with
  | start => exact .start
  | @next es op k r _ ih => exact (Runs.next r ih : Runs (p >>= f) _ ((k r).bind f))

theorem runs_pure_iff {a b : α} {es : List (Event S)} :
    Runs (pure a : Program S ε α) es (pure b) ↔ es = [] ∧ b = a := by
  constructor
  · intro h
    generalize hq : (pure b : Program S ε α) = q at h
    cases h with
    | start =>
      cases hq
      exact ⟨rfl, rfl⟩
    | next r h => cases h.eq_of_pure
  · rintro ⟨rfl, rfl⟩
    exact .start

/-- A sequence has returned once both parts have. -/
theorem runs_bind_pure {p : Program S ε α} {f : α → Program S ε β} {es : List (Event S)} {b : β} :
    Runs (p >>= f) es (pure b) ↔
      ∃ first rest a, es = first ++ rest ∧ Runs p first (pure a) ∧ Runs (f a) rest (pure b) := by
  constructor
  · intro h
    rcases h.of_bind with ⟨p', hp', hb⟩ | hparts
    · cases p' with
      | pure a => exact ⟨es, [], a, by simp, hp', hb ▸ .start⟩
      | fail e => cases hb
      | perform op k => cases hb
    · exact hparts
  · rintro ⟨first, rest, a, rfl, hp, hf⟩
    exact hp.bind_left.trans hf

theorem Only.of_bind {Q : S.Op → Prop} {p : Program S ε α} {f : α → Program S ε β}
    (h : (p >>= f).Only Q) : p.Only Q := by
  induction p with
  | pure a => trivial
  | fail e => trivial
  | perform op k ih => exact ⟨h.1, fun r => ih r (h.2 r)⟩

/-- After a part that performs operations in `Q` only, the history has grown by a run of it. -/
theorem Only.runs_bind {Q : S.Op → Prop} {pre : List (Event S) → S.Op → Prop}
    {post : List (Event S) → Except ε β → Prop} {past : List (Event S)} {p : Program S ε α}
    {f : α → Program S ε β} (hp : p.Only Q) (hpre : ∀ past op, Q op → pre past op)
    (herr : ∀ past e, post past (.error e))
    (hok : ∀ es a, Runs p es (pure a) → (∀ e ∈ es, Q e.op) → (f a).Spec pre post (past ++ es)) :
    (p >>= f).Spec pre post past := by
  induction p generalizing past with
  | pure a =>
    change (f a).Spec pre post past
    simpa using hok [] a .start (by simp)
  | fail e => exact herr past e
  | perform op k ih =>
    refine ⟨hpre _ _ hp.1, fun r => ih r (hp.2 r) fun es a hruns hes => ?_⟩
    rw [List.append_assoc]
    exact hok (⟨op, r⟩ :: es) a (Runs.call_bind hruns) (List.forall_mem_cons.mpr ⟨hp.1, hes⟩)

/-! ## One after the other -/

def sequence : List (Program S ε α) → Program S ε (List α)
  | [] => pure []
  | p :: ps => do
    let a ← p
    let as ← sequence ps
    pure (a :: as)

/-- A program that returned, with its own events and its result. -/
abbrev Returns (p : Program S ε α) (x : List (Event S) × α) : Prop := Runs p x.1 (pure x.2)

theorem runs_sequence {ps : List (Program S ε α)} {es : List (Event S)} {as : List α} :
    Runs (sequence ps) es (pure as) ↔ ∃ runs, List.Forall₂ Returns ps runs ∧
      es = (runs.map Prod.fst).flatten ∧ as = runs.map Prod.snd := by
  induction ps generalizing es as with
  | nil =>
    rw [show (sequence [] : Program S ε (List α)) = pure [] from rfl, runs_pure_iff]
    constructor
    · rintro ⟨rfl, rfl⟩
      exact ⟨[], .nil, rfl, rfl⟩
    · rintro ⟨runs, hruns, rfl, rfl⟩
      cases hruns
      exact ⟨rfl, rfl⟩
  | cons p ps ih =>
    constructor
    · intro h
      obtain ⟨first, rest, a, rfl, hp, hrest⟩ := runs_bind_pure.mp h
      obtain ⟨own, last, as', rfl, hps, hlast⟩ := runs_bind_pure.mp hrest
      obtain ⟨rfl, rfl⟩ := runs_pure_iff.mp hlast
      obtain ⟨runs, hruns, rfl, rfl⟩ := ih.mp hps
      exact ⟨(first, a) :: runs, .cons hp hruns, by simp, rfl⟩
    · rintro ⟨runs, hruns, rfl, rfl⟩
      cases hruns with
      | @cons _ x _ runs hx hruns =>
        have hps := ih.mpr ⟨runs, hruns, rfl, rfl⟩
        refine runs_bind_pure.mpr ⟨x.1, (runs.map Prod.fst).flatten, x.2, rfl, hx, ?_⟩
        exact runs_bind_pure.mpr ⟨_, [], _, (List.append_nil _).symm, hps, .start⟩

/-! ## All at once -/

/-- What is left of the programs `ps` after the events `es`, each under the number of the program
that was polled. -/
inductive JoinRuns (ps : List (Program S ε α)) :
    List (ℕ × Event S) → List (Program S ε α) → Prop
  | start : JoinRuns ps [] ps
  | poll {es qs i op k} (r : S.Answer op) : JoinRuns ps es qs → qs[i]? = some (perform op k) →
      JoinRuns ps (es ++ [(i, ⟨op, r⟩)]) (qs.set i (k r))

/-- The events of program `i`. -/
def ownEvents (es : List (ℕ × Event S)) (i : ℕ) : List (Event S) :=
  (es.filter (·.1 = i)).map Prod.snd

theorem ownEvents_snoc_self (es : List (ℕ × Event S)) (i : ℕ) (e : Event S) :
    ownEvents (es ++ [(i, e)]) i = ownEvents es i ++ [e] := by
  simp [ownEvents]

theorem ownEvents_snoc_ne {es : List (ℕ × Event S)} {i j : ℕ} (h : i ≠ j) (e : Event S) :
    ownEvents (es ++ [(i, e)]) j = ownEvents es j := by
  simp [ownEvents, h]

/-- Each program runs on its own events alone. -/
theorem JoinRuns.own {ps qs : List (Program S ε α)} {es : List (ℕ × Event S)}
    (h : JoinRuns ps es qs) : qs.length = ps.length ∧
      ∀ i p q, ps[i]? = some p → qs[i]? = some q → Runs p (ownEvents es i) q := by
  induction h with
  | start =>
    refine ⟨rfl, fun i p q hp hq => ?_⟩
    obtain rfl : p = q := by simpa [hp] using hq
    exact .start
  | @poll es qs i op k r _ hi ih =>
    obtain ⟨hlen, hown⟩ := ih
    refine ⟨by simpa using hlen, fun j p q hp hq => ?_⟩
    by_cases hij : i = j
    · subst hij
      obtain rfl : k r = q := by
        simpa [List.getElem?_set_self (List.getElem?_eq_some_iff.mp hi).1] using hq
      rw [ownEvents_snoc_self]
      exact .next r (hown i p _ hp hi)
    · rw [List.getElem?_set_ne hij] at hq
      rw [ownEvents_snoc_ne hij]
      exact hown j p q hp hq

/-- Once all have returned, each result belongs to the events of its own program. -/
theorem JoinRuns.returns {ps : List (Program S ε α)} {es : List (ℕ × Event S)} {as : List α}
    (h : JoinRuns ps es (as.map pure)) :
    List.Forall₂ Returns ps (as.mapIdx fun i a => (ownEvents es i, a)) := by
  obtain ⟨hlen, hown⟩ := h.own
  rw [List.forall₂_iff_get]
  refine ⟨by simpa using hlen.symm, fun i hi hi' => ?_⟩
  have hlt : i < as.length := by simpa using hi'
  simpa using hown i ps[i] (pure as[i]) (by simp) (by simp [hlt])

/-- One of the programs may be polled as often as it has operations left. -/
theorem JoinRuns.run {ps qs : List (Program S ε α)} {es : List (ℕ × Event S)}
    (h : JoinRuns ps es qs) {i : ℕ} {q q' : Program S ε α} (hi : qs[i]? = some q)
    {own : List (Event S)} (hq : Runs q own q') :
    JoinRuns ps (es ++ own.map (i, ·)) (qs.set i q') := by
  induction hq with
  | start =>
    obtain ⟨hlt, rfl⟩ := List.getElem?_eq_some_iff.mp hi
    simpa using h
  | @next own op k r _ ih =>
    have hk : (qs.set i (perform op k))[i]? = some (perform op k) := by
      simp [(List.getElem?_eq_some_iff.mp hi).1]
    simpa using ih.poll r hk

/-- Programs that return on events of their own return together, in whatever order they are
polled: here one after the other. -/
theorem joinRuns_of_returns {ps : List (Program S ε α)} {runs : List (List (Event S) × α)}
    (h : List.Forall₂ Returns ps runs) :
    ∃ es, JoinRuns ps es (runs.map fun x => pure x.2) ∧
      es.map Prod.snd = (runs.map Prod.fst).flatten := by
  suffices hfrom : ∀ todo runs, List.Forall₂ Returns todo runs → ∀ done es,
      JoinRuns ps es (done ++ todo) → ∃ es', JoinRuns ps (es ++ es')
        (done ++ runs.map fun x => pure x.2) ∧ es'.map Prod.snd = (runs.map Prod.fst).flatten by
    obtain ⟨es, hes⟩ := hfrom ps runs h [] [] .start
    exact ⟨es, by simpa using hes⟩
  intro todo runs h
  induction h with
  | nil => exact fun done es hes => ⟨[], by simpa using hes⟩
  | @cons q x todo runs hx _ ih =>
    intro done es hes
    have hstep := hes.run (i := done.length) (by simp) hx
    rw [List.set_append_right _ _ le_rfl, Nat.sub_self, List.set_cons_zero] at hstep
    obtain ⟨es', hes', hevents⟩ := ih (done ++ [pure x.2]) _ (by simpa using hstep)
    exact ⟨x.1.map (done.length, ·) ++ es', by simpa using hes', by simp [hevents]⟩

/-- The results that joined programs can return are those of the programs in sequence. -/
theorem exists_joinRuns_iff {ps : List (Program S ε α)} {as : List α} :
    (∃ es, JoinRuns ps es (as.map pure)) ↔ ∃ es, Runs (sequence ps) es (pure as) := by
  constructor
  · rintro ⟨es, hes⟩
    exact ⟨_, runs_sequence.mpr ⟨_, hes.returns, rfl, List.ext_getElem (by simp) (by simp)⟩⟩
  · rintro ⟨es, hes⟩
    obtain ⟨runs, hruns, -, rfl⟩ := runs_sequence.mp hes
    obtain ⟨es', hes', -⟩ := joinRuns_of_returns hruns
    exact ⟨es', by rwa [List.map_map]⟩

end Program

end AgentExchange.Library
