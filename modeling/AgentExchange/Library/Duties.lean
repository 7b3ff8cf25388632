import AgentExchange.Library.TaskPool
import Mathlib.Logic.Function.Basic

/-!
# Duties between the steps of a task

Some events leave a program with a duty: the very next operation it performs has to
settle it, and some operations are performed to settle a duty only. A program that
keeps such a discipline can be dropped, but it cannot go on otherwise. So what a live
task is about to do is known from its last event, and invariants of a pool may speak
about the duties still pending.
-/
namespace AgentExchange.Library

/-- Which duty an event leaves, which operations settle it, and which are performed for no other
reason. -/
structure Discipline (S : Signature) (δ : Type) where
  leaves : Event S → Option δ
  settles : δ → S.Op → Prop
  reserved : S.Op → Prop

namespace Discipline

variable {S : Signature} {δ ε α β : Type} (D : Discipline S δ)

/-- The duty left by the last event. -/
def owed (past : List (Event S)) : Option δ := past.getLast?.bind D.leaves

def Next (past : List (Event S)) (op : S.Op) : Prop :=
  match D.owed past with
  | some d => D.settles d op
  | none => ¬D.reserved op

def Done (past : List (Event S)) (_ : Except ε α) : Prop := D.owed past = none

/-- An operation that neither leaves a duty nor waits for one. -/
def Idle (op : S.Op) : Prop := ¬D.reserved op ∧ ∀ answer, D.leaves ⟨op, answer⟩ = none

@[simp] theorem owed_nil : D.owed [] = none := rfl

@[simp] theorem owed_snoc (past : List (Event S)) (e : Event S) :
    D.owed (past ++ [e]) = D.leaves e := by
  simp [owed]

variable {D} {past : List (Event S)}

theorem exists_leaves_of_owed {d : δ} (h : D.owed past = some d) :
    ∃ e ∈ past, D.leaves e = some d := by
  obtain ⟨e, he, hleaves⟩ := Option.bind_eq_some_iff.mp h
  exact ⟨e, List.mem_of_getLast? he, hleaves⟩

theorem Idle.next {op : S.Op} (h : D.Idle op) (hpast : D.owed past = none) : D.Next past op := by
  unfold Next
  rw [hpast]
  exact h.1

theorem next_of_owed {d : δ} {op : S.Op} (hpast : D.owed past = some d) (h : D.settles d op) :
    D.Next past op := by
  unfold Next
  rw [hpast]
  exact h

/-- A part that performs idle operations only leaves no duty. -/
theorem spec_idle {p : Program S ε α} (hp : p.Only D.Idle) (hpast : D.owed past = none) :
    p.Spec D.Next D.Done past := by
  induction p generalizing past with
  | pure a => exact hpast
  | fail e => exact hpast
  | perform op k ih =>
    refine ⟨hp.1.next hpast, fun answer => ih answer (hp.2 answer) ?_⟩
    rw [owed_snoc]
    exact hp.1.2 answer

theorem spec_idle_bind {p : Program S ε α} {f : α → Program S ε β} (hp : p.Only D.Idle)
    (hpast : D.owed past = none)
    (hok : ∀ a past', D.owed past' = none → (f a).Spec D.Next D.Done past') :
    (p >>= f).Spec D.Next D.Done past := by
  refine Program.spec_bind.mpr ((spec_idle hp hpast).mono (fun _ _ h => h) ?_)
  rintro past' (e | a) h
  · exact h
  · exact hok a past' h

/-- What a task does after an event: it settles the duty the event leaves, or it performs nothing
reserved. -/
structure After (D : Discipline S δ) (e : Event S) (next : Option S.Op) : Prop where
  settles : ∀ d, D.leaves e = some d → ∃ op, next = some op ∧ D.settles d op
  free : D.leaves e = none → ∀ op, next = some op → ¬D.reserved op

end Discipline

namespace Pool

variable {S : Signature} {σ ρ ε α χ θ δ : Type} {M : Semantics S σ ρ ε α χ θ}
  {p : Pool S σ ρ ε α} {i j : ℕ}

theorem pending_set {t : Task S ρ ε α} (hi : i < p.tasks.length) {s : σ}
    {trace : List (Entry S σ ρ)} :
    (⟨s, p.tasks.set i t, trace⟩ : Pool S σ ρ ε α).pending =
      Function.update p.pending i ((⟨s, [t], trace⟩ : Pool S σ ρ ε α).pending 0) := by
  funext j
  by_cases hij : i = j
  · subst hij
    simp [pending, hi]
  · simp [pending, Function.update_of_ne (Ne.symm hij), List.getElem?_set_ne hij]

theorem pending_append {t : Task S ρ ε α} {s : σ} {trace : List (Entry S σ ρ)} :
    (⟨s, p.tasks ++ [t], trace⟩ : Pool S σ ρ ε α).pending =
      Function.update p.pending p.tasks.length ((⟨s, [t], trace⟩ : Pool S σ ρ ε α).pending 0) := by
  funext j
  by_cases hj : p.tasks.length = j
  · subst hj
    simp [pending]
  · rw [Function.update_of_ne (Ne.symm hj)]
    rcases Nat.lt_or_gt_of_ne hj with hlt | hgt
    · simp [pending, List.getElem?_append_right hlt.le, Nat.sub_ne_zero_of_lt hlt, hlt.le]
    · simp [pending, List.getElem?_append_left hgt]

theorem pending_length : p.pending p.tasks.length = none := by
  simp [pending]

/-- No task has an operation left to perform. -/
def quiescent (p : Pool S σ ρ ε α) : Bool :=
  (List.range p.tasks.length).all fun i => (p.pending i).isNone

theorem quiescent_iff : p.quiescent = true ↔ ∀ i, p.pending i = none := by
  simp only [quiescent, List.all_eq_true, List.mem_range, Option.isNone_iff_eq_none]
  constructor
  · intro h i
    by_cases hi : i < p.tasks.length
    · exact h i hi
    · simp [pending, List.getElem?_eq_none (Nat.le_of_not_lt hi)]
  · exact fun h i _ => h i

/-- What is pending of a task that was just started or just got an answer. -/
theorem pending_single {r : ρ} {q : Program S ε α} {s : σ} {trace : List (Entry S σ ρ)}
    {op : S.Op} (h : (⟨s, [⟨r, some q⟩], trace⟩ : Pool S σ ρ ε α).pending 0 = some op) :
    ∃ k, q = .perform op k := by
  cases q with
  | pure a => cases h
  | fail e => cases h
  | perform op' k =>
    obtain rfl : op' = op := by simpa [pending] using h
    exact ⟨k, rfl⟩

variable {D : Discipline S δ}

/-- The duty of a task comes from its last event. -/
theorem owed_take {entries : List (Entry S σ ρ)} {n : ℕ} {d : δ} (hn : n ≤ entries.length)
    (h : D.owed (eventsOf (entries.take n) i) = some d) :
    ∃ k, k < n ∧ ∃ m, entries[k]? = some m ∧ m.task = i ∧ D.leaves m.event = some d ∧
      ∀ j x, k < j → j < n → entries[j]? = some x → x.task ≠ i := by
  induction n with
  | zero => cases h
  | succ n ih =>
    have hlt : n < entries.length := hn
    rw [List.take_succ_eq_append_getElem hlt, eventsOf_append] at h
    by_cases htask : entries[n].task = i
    · subst htask
      rw [eventsOf_singleton_self, Discipline.owed_snoc] at h
      exact ⟨n, Nat.lt_succ_self n, entries[n], List.getElem?_eq_getElem hlt, rfl, h, by omega⟩
    · rw [eventsOf_singleton_ne htask, List.append_nil] at h
      obtain ⟨k, hk, m, hm, hmtask, hleaves, hlast⟩ := ih hlt.le h
      refine ⟨k, by omega, m, hm, hmtask, hleaves, fun j x hkj hj hx => ?_⟩
      by_cases hjn : j = n
      · subst hjn
        rw [List.getElem?_eq_getElem hlt] at hx
        rw [← Option.some.inj hx]
        exact htask
      · exact hlast j x hkj (by omega) hx

variable (hspec : ∀ r, (M.handler r).Spec D.Next D.Done [])

include hspec

theorem free_of_spawn (r : ρ) {s : σ} {trace : List (Entry S σ ρ)} {op : S.Op}
    (h : (⟨s, [⟨r, some (M.handler r)⟩], trace⟩ : Pool S σ ρ ε α).pending 0 = some op) :
    ¬D.reserved op := by
  obtain ⟨k, hk⟩ := pending_single h
  have hnext := hspec r
  rw [hk] at hnext
  exact hnext.1

theorem after_of_perform (hp : Conforms M p) {r : ρ} {op : S.Op} {k : S.Answer op → Program S ε α}
    (hi : p.tasks[i]? = some ⟨r, some (.perform op k)⟩) (answer : S.Answer op) {s : σ}
    {trace : List (Entry S σ ρ)} :
    D.After ⟨op, answer⟩ ((⟨s, [⟨r, some (k answer)⟩], trace⟩ : Pool S σ ρ ε α).pending 0) := by
  obtain ⟨q, hq, hprog⟩ := hp.program i _ hi
  obtain rfl : .perform op k = q := by simpa using hprog
  have hrest := (hq.spec (hspec r)).2 answer
  constructor
  · intro d hd
    generalize k answer = q at hrest
    cases q with
    | pure a =>
      have hdone : D.owed _ = none := hrest
      rw [Discipline.owed_snoc, hd] at hdone
      cases hdone
    | fail e =>
      have hdone : D.owed _ = none := hrest
      rw [Discipline.owed_snoc, hd] at hdone
      cases hdone
    | perform op' k' =>
      refine ⟨op', rfl, ?_⟩
      have hnext := hrest.1
      rw [Discipline.Next, Discipline.owed_snoc, hd] at hnext
      exact hnext
  · intro hd op' hop'
    obtain ⟨k', hk'⟩ := pending_single hop'
    rw [hk'] at hrest
    have hnext := hrest.1
    rw [Discipline.Next, Discipline.owed_snoc, hd] at hnext
    exact hnext

/-- A reserved operation settles the duty that the last event of its task left. -/
theorem owed_of_reserved (hp : Conforms M p) {past rest : List (Entry S σ ρ)} {e : Entry S σ ρ}
    (he : p.trace = past ++ e :: rest) (hreserved : D.reserved e.event.op) :
    ∃ d, D.owed (eventsOf past e.task) = some d ∧ D.settles d e.event.op := by
  have hnext := hp.operation_spec hspec he
  rw [Discipline.Next] at hnext
  cases hd : D.owed (eventsOf past e.task) with
  | none =>
    rw [hd] at hnext
    exact absurd hreserved hnext
  | some d =>
    rw [hd] at hnext
    exact ⟨d, rfl, hnext⟩

/-- A duty that is left at most once is settled at most once. -/
theorem settled_once (hp : Conforms M p) {d : δ} {Q : S.Op → Prop}
    (honce : p.trace.Pairwise fun e e' => D.leaves e.event = some d → D.leaves e'.event ≠ some d)
    (hreserved : ∀ op, Q op → D.reserved op)
    (hsettles : ∀ op d', Q op → D.settles d' op → d' = d) :
    p.trace.Pairwise fun e e' => Q e.event.op → ¬Q e'.event.op := by
  have hleft : ∀ n (hn : n < p.trace.length), Q p.trace[n].event.op →
      D.owed (eventsOf (p.trace.take n) p.trace[n].task) = some d := by
    intro n hn hQ
    have hsplit : p.trace = p.trace.take n ++ p.trace[n] :: p.trace.drop (n + 1) := by
      rw [List.getElem_cons_drop, List.take_append_drop]
    obtain ⟨d', howed, hd'⟩ := owed_of_reserved hspec hp hsplit (hreserved _ hQ)
    rw [howed, hsettles _ d' hQ hd']
  rw [List.pairwise_iff_getElem]
  intro a b ha hb hab hQa hQb
  obtain ⟨k, hk, m, hm, hmtask, hmleaves, -⟩ := owed_take ha.le (hleft a ha hQa)
  obtain ⟨k', hk', m', hm', hmtask', hmleaves', hlast⟩ := owed_take hb.le (hleft b hb hQb)
  obtain ⟨hlt, rfl⟩ := List.getElem?_eq_some_iff.mp hm
  obtain ⟨hlt', rfl⟩ := List.getElem?_eq_some_iff.mp hm'
  rcases Nat.lt_trichotomy k k' with hkk | hkk | hkk
  · exact List.pairwise_iff_getElem.mp honce k k' hlt hlt' hkk hmleaves hmleaves'
  · -- the first operation stands between the event and the second operation
    subst hkk
    exact hlast a _ hk hab (List.getElem?_eq_getElem ha) (hmtask.symm.trans hmtask')
  · exact List.pairwise_iff_getElem.mp honce k' k hlt' hlt hkk hmleaves' hmleaves

/-- A task that has ended has settled the duties it was left with. -/
theorem settled_of_outcome (hp : Conforms M p) {t : Task S ρ ε α} {r : Except ε α} {d : δ}
    {m : Entry S σ ρ} (hm : m ∈ p.trace) (hleaves : D.leaves m.event = some d)
    (ht : p.tasks[m.task]? = some t) (hr : p.outcome m.task = some r) :
    ∃ e ∈ p.trace, e.task = m.task ∧ D.settles d e.event.op := by
  obtain ⟨q, hq, hout⟩ := hp.outcome_runs ht hr
  obtain ⟨before, after, hevents⟩ := List.append_of_mem (mem_eventsOf.mpr ⟨m, hm, rfl, rfl⟩)
  have howed : D.owed (before ++ [m.event]) = some d := (D.owed_snoc _ _).trans hleaves
  cases after with
  | nil =>
    have hdone : D.owed (eventsOf p.trace m.task) = none := hq.outcome_spec (hspec t.request) hout
    rw [hevents, howed] at hdone
    cases hdone
  | cons x after =>
    have hnext := hq.pre_of_mem (hspec t.request) (before ++ [m.event]) x after
      (by rw [hevents, List.append_assoc]; rfl)
    rw [Discipline.Next, howed] at hnext
    have hx : x ∈ eventsOf p.trace m.task := by rw [hevents]; simp
    obtain ⟨e, he, htask, rfl⟩ := mem_eventsOf.mp hx
    exact ⟨e, he, htask, hnext⟩

/-- The invariant rule for properties of the pending operations, the trace and the shared state,
where the programs keep a discipline. -/
theorem run_pending_induction {init : σ} {C : Pool S σ ρ ε α → Label ρ χ θ → Prop}
    {J : (ℕ → Option S.Op) → List (Entry S σ ρ) → σ → Prop}
    (hinit : J (fun _ => none) [] init)
    (hspawn : ∀ (p : Pool S σ ρ ε α) i next, p.pending i = none →
      (∀ op, next = some op → ¬D.reserved op) → J p.pending p.trace p.shared →
      J (Function.update p.pending i next) p.trace p.shared)
    (hperform : ∀ labels i c r op next, let p := run M init labels
      p.pending i = some op → C p (.step i c) →
      D.After ⟨op, (M.exec p.shared op c).1⟩ next → J p.pending p.trace p.shared →
      J (Function.update p.pending i next)
        (p.trace ++ [⟨i, r, p.shared, ⟨op, (M.exec p.shared op c).1⟩⟩]) (M.exec p.shared op c).2)
    (hcancel : ∀ (p : Pool S σ ρ ε α) i, C p (.cancel i) → J p.pending p.trace p.shared →
      J (Function.update p.pending i none) p.trace p.shared)
    (henvironment : ∀ (p : Pool S σ ρ ε α) t, J p.pending p.trace p.shared →
      J p.pending p.trace (M.environment t p.shared)) (labels : List (Label ρ χ θ))
    (h : Along M init C labels) :
    J (run M init labels).pending (run M init labels).trace (run M init labels).shared := by
  induction labels using List.reverseRecOn with
  | nil => exact hinit
  | append_singleton labels l ih =>
    obtain ⟨hdone, hl⟩ := h.snoc
    have hp := ih hdone
    have hconf := run_conforms M init labels
    have hstep := next_step M (run M init labels) l
    rw [run_snoc]
    generalize (run M init labels).next M l = p' at hstep
    cases hstep with
    | spawn r =>
      rw [pending_append]
      exact hspawn _ _ _ pending_length (fun op hop => free_of_spawn hspec r hop) hp
    | @perform i c r op k hi =>
      rw [pending_set (List.getElem?_eq_some_iff.mp hi).1]
      exact hperform labels i c r op _ (pending_eq_some hi) hl
        (after_of_perform hspec hconf hi _) hp
    | @cancel i t hi =>
      rw [pending_set (List.getElem?_eq_some_iff.mp hi).1]
      exact hcancel _ i hl hp
    | environment t => exact henvironment _ t hp
    | idle => exact hp

end Pool

end AgentExchange.Library
