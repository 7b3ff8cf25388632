import AgentExchange.Library.Execution

/-!
# Pools of interleaved tasks

Any number of tasks run programs against one shared state. A label starts a task,
lets one task perform its next operation, drops a task, or lets the environment
act. The pool keeps a ghost trace of every operation performed, with the shared
state it was performed in; a property of all reachable pools is therefore a
property of all interleavings.

The operations are interpreted by `exec`, which takes a choice besides the state,
so a result may also depend on what the outside world answers.
-/
namespace AgentExchange.Library

/-- A request with what is left of the program serving it; `none` once it was dropped. -/
structure Task (S : Signature) (ρ ε α : Type) where
  request : ρ
  program : Option (Program S ε α)

/-- One performed operation: the task and its request, the shared state before it, and the
answer. -/
structure Entry (S : Signature) (σ ρ : Type) where
  task : ℕ
  request : ρ
  before : σ
  event : Event S

structure Pool (S : Signature) (σ ρ ε α : Type) where
  shared : σ
  tasks : List (Task S ρ ε α) := []
  trace : List (Entry S σ ρ) := []

inductive Label (ρ χ θ : Type) where
  | spawn (request : ρ)
  | step (task : ℕ) (choice : χ)
  | cancel (task : ℕ)
  | environment (change : θ)

/-- The request the label starts a task for. -/
def Label.received {ρ χ θ : Type} : Label ρ χ θ → Option ρ
  | .spawn r => some r
  | _ => none

/-- How operations, requests and the environment are interpreted. -/
structure Semantics (S : Signature) (σ ρ ε α χ θ : Type) where
  handler : ρ → Program S ε α
  exec : σ → (op : S.Op) → χ → S.Answer op × σ
  environment : θ → σ → σ

namespace Pool

variable {S : Signature} {σ ρ ε α χ θ : Type} (M : Semantics S σ ρ ε α χ θ)

def step (p : Pool S σ ρ ε α) (i : ℕ) (c : χ) : Pool S σ ρ ε α :=
  match p.tasks[i]? with
  | some ⟨r, some (.perform op k)⟩ =>
    let out := M.exec p.shared op c
    { shared := out.2
      tasks := p.tasks.set i ⟨r, some (k out.1)⟩
      trace := p.trace ++ [⟨i, r, p.shared, ⟨op, out.1⟩⟩] }
  | _ => p

def cancel (p : Pool S σ ρ ε α) (i : ℕ) : Pool S σ ρ ε α :=
  match p.tasks[i]? with
  | some t => { p with tasks := p.tasks.set i { t with program := none } }
  | none => p

def next (p : Pool S σ ρ ε α) : Label ρ χ θ → Pool S σ ρ ε α
  | .spawn r => { p with tasks := p.tasks ++ [⟨r, some (M.handler r)⟩] }
  | .step i c => p.step M i c
  | .cancel i => p.cancel i
  | .environment t => { p with shared := M.environment t p.shared }

/-- The pool after a run of labels from a shared state with no tasks. -/
def run (init : σ) (labels : List (Label ρ χ θ)) : Pool S σ ρ ε α :=
  labels.foldl (next M) ⟨init, [], []⟩

theorem run_snoc (init : σ) (labels : List (Label ρ χ θ)) (l : Label ρ χ θ) :
    run M init (labels ++ [l]) = (run M init labels).next M l := by
  simp [run]

/-- The events of one task, in order. -/
def eventsOf (trace : List (Entry S σ ρ)) (i : ℕ) : List (Event S) :=
  (trace.filter fun e => e.task = i).map Entry.event

@[simp] theorem eventsOf_append (t t' : List (Entry S σ ρ)) (i : ℕ) :
    eventsOf (t ++ t') i = eventsOf t i ++ eventsOf t' i := by
  simp [eventsOf]

@[simp] theorem eventsOf_singleton_self (e : Entry S σ ρ) : eventsOf [e] e.task = [e.event] := by
  simp [eventsOf]

theorem eventsOf_singleton_ne {e : Entry S σ ρ} {i : ℕ} (h : e.task ≠ i) : eventsOf [e] i = [] := by
  simp [eventsOf, h]

theorem mem_eventsOf {trace : List (Entry S σ ρ)} {i : ℕ} {e : Event S} :
    e ∈ eventsOf trace i ↔ ∃ x ∈ trace, x.task = i ∧ x.event = e := by
  simp [eventsOf, and_assoc]

/-- The outcome of task `i`, once its program has ended. -/
def outcome (p : Pool S σ ρ ε α) (i : ℕ) : Option (Except ε α) := do
  let t ← p.tasks[i]?
  let q ← t.program
  q.outcome

/-- The operation task `i` is about to perform. -/
def pending (p : Pool S σ ρ ε α) (i : ℕ) : Option S.Op :=
  match p.tasks[i]? with
  | some ⟨_, some (.perform op _)⟩ => some op
  | _ => none

theorem pending_eq_some {p : Pool S σ ρ ε α} {i : ℕ} {r : ρ} {op : S.Op}
    {k : S.Answer op → Program S ε α} (h : p.tasks[i]? = some ⟨r, some (.perform op k)⟩) :
    p.pending i = some op := by
  simp only [pending, h]

/-- The operation the label performs, if any, meets the condition on the trace and the shared
state before it. -/
def performs (cond : List (Entry S σ ρ) → σ → S.Op → Bool) (p : Pool S σ ρ ε α) :
    Label ρ χ θ → Bool
  | .step i _ => (p.pending i).all (cond p.trace p.shared)
  | _ => true

theorem cond_of_performs {cond : List (Entry S σ ρ) → σ → S.Op → Bool} {p : Pool S σ ρ ε α} {i : ℕ}
    {c : χ} {r : ρ} {op : S.Op} {k : S.Answer op → Program S ε α}
    (hi : p.tasks[i]? = some ⟨r, some (.perform op k)⟩)
    (h : performs (θ := θ) cond p (.step i c) = true) : cond p.trace p.shared op = true := by
  simpa [performs, pending_eq_some hi] using h

/-- Everything a label can do to a pool. -/
inductive Step (p : Pool S σ ρ ε α) : Label ρ χ θ → Pool S σ ρ ε α → Prop
  | spawn (r : ρ) :
    Step p (.spawn r) { p with tasks := p.tasks ++ [⟨r, some (M.handler r)⟩] }
  | perform {i : ℕ} {c : χ} {r : ρ} {op : S.Op} {k : S.Answer op → Program S ε α}
      (h : p.tasks[i]? = some ⟨r, some (.perform op k)⟩) :
    Step p (.step i c)
      { shared := (M.exec p.shared op c).2
        tasks := p.tasks.set i ⟨r, some (k (M.exec p.shared op c).1)⟩
        trace := p.trace ++ [⟨i, r, p.shared, ⟨op, (M.exec p.shared op c).1⟩⟩] }
  | cancel {i : ℕ} {t : Task S ρ ε α} (h : p.tasks[i]? = some t) :
    Step p (.cancel i) { p with tasks := p.tasks.set i { t with program := none } }
  | environment (t : θ) :
    Step p (.environment t) { p with shared := M.environment t p.shared }
  | idle (l : Label ρ χ θ) : Step p l p

theorem next_step (p : Pool S σ ρ ε α) (l : Label ρ χ θ) : Step M p l (p.next M l) := by
  cases l with
  | spawn r => exact .spawn r
  | step i c =>
    change Step M p (.step i c) (p.step M i c)
    unfold step
    split
    · rename_i r op k h
      exact .perform h
    · exact .idle _
  | cancel i =>
    change Step M p (.cancel i) (p.cancel i)
    unfold cancel
    split
    · rename_i t h
      exact .cancel h
    · exact .idle _
  | environment t => exact .environment t

/-- Every label of the run meets `C` in the pool it is taken in. -/
def Along (init : σ) (C : Pool S σ ρ ε α → Label ρ χ θ → Prop) (labels : List (Label ρ χ θ)) :
    Prop :=
  ∀ done l rest, labels = done ++ l :: rest → C (run M init done) l

theorem Along.of_append {init : σ} {C : Pool S σ ρ ε α → Label ρ χ θ → Prop}
    {done more : List (Label ρ χ θ)} (h : Along M init C (done ++ more)) : Along M init C done := by
  intro done' l rest he
  exact h done' l (rest ++ more) (by simp [he])

theorem Along.snoc {init : σ} {C : Pool S σ ρ ε α → Label ρ χ θ → Prop}
    {labels : List (Label ρ χ θ)} {l : Label ρ χ θ} (h : Along M init C (labels ++ [l])) :
    Along M init C labels ∧ C (run M init labels) l :=
  ⟨h.of_append, h labels l [] rfl⟩

/-- The condition of every label, checked one label after the other. -/
def AlongFrom (C : Pool S σ ρ ε α → Label ρ χ θ → Prop) :
    Pool S σ ρ ε α → List (Label ρ χ θ) → Prop
  | _, [] => True
  | p, l :: rest => C p l ∧ AlongFrom C (p.next M l) rest

instance decidableAlongFrom {C : Pool S σ ρ ε α → Label ρ χ θ → Prop} [∀ p l, Decidable (C p l)] :
    ∀ p labels, Decidable (AlongFrom M C p labels)
  | _, [] => isTrue trivial
  | p, l :: rest => @instDecidableAnd _ _ _ (decidableAlongFrom (p.next M l) rest)

theorem AlongFrom.at {C : Pool S σ ρ ε α → Label ρ χ θ → Prop} {p : Pool S σ ρ ε α}
    {done rest : List (Label ρ χ θ)} {l : Label ρ χ θ}
    (h : AlongFrom M C p (done ++ l :: rest)) : C (done.foldl (next M) p) l := by
  induction done generalizing p with
  | nil => exact h.1
  | cons a done ih => exact ih h.2

theorem AlongFrom.along {init : σ} {C : Pool S σ ρ ε α → Label ρ χ θ → Prop}
    {labels : List (Label ρ χ θ)} (h : AlongFrom M C ⟨init, [], []⟩ labels) :
    Along M init C labels := by
  intro done l rest he
  rw [he] at h
  exact h.at

/-- The condition of every label and a property of the pool at the end, checked in one pass. -/
def AlongTo (C : Pool S σ ρ ε α → Label ρ χ θ → Prop) (Q : Pool S σ ρ ε α → Prop) :
    Pool S σ ρ ε α → List (Label ρ χ θ) → Prop
  | p, [] => Q p
  | p, l :: rest => C p l ∧ AlongTo C Q (p.next M l) rest

instance decidableAlongTo {C : Pool S σ ρ ε α → Label ρ χ θ → Prop} [∀ p l, Decidable (C p l)]
    {Q : Pool S σ ρ ε α → Prop} [∀ p, Decidable (Q p)] :
    ∀ p labels, Decidable (AlongTo M C Q p labels)
  | p, [] => inferInstanceAs (Decidable (Q p))
  | p, l :: rest => @instDecidableAnd _ _ _ (decidableAlongTo (p.next M l) rest)

theorem AlongTo.from {C : Pool S σ ρ ε α → Label ρ χ θ → Prop} {Q : Pool S σ ρ ε α → Prop}
    {p : Pool S σ ρ ε α} {labels : List (Label ρ χ θ)} (h : AlongTo M C Q p labels) :
    AlongFrom M C p labels ∧ Q (labels.foldl (next M) p) := by
  induction labels generalizing p with
  | nil => exact ⟨trivial, h⟩
  | cons l labels ih => exact ⟨⟨h.1, (ih h.2).1⟩, (ih h.2).2⟩

theorem AlongTo.along {init : σ} {C : Pool S σ ρ ε α → Label ρ χ θ → Prop}
    {Q : Pool S σ ρ ε α → Prop} {labels : List (Label ρ χ θ)}
    (h : AlongTo M C Q ⟨init, [], []⟩ labels) : Along M init C labels ∧ Q (run M init labels) :=
  ⟨h.from.1.along, h.from.2⟩

theorem Along.mono {init : σ} {C C' : Pool S σ ρ ε α → Label ρ χ θ → Prop}
    {labels : List (Label ρ χ θ)} (h : Along M init C labels) (hC : ∀ p l, C p l → C' p l) :
    Along M init C' labels :=
  fun done l rest he => hC _ l (h done l rest he)

/-- What holds at the start and is kept by every step that meets `C` holds after every run
whose labels meet `C`. -/
theorem run_induction {init : σ} {C : Pool S σ ρ ε α → Label ρ χ θ → Prop}
    {I : Pool S σ ρ ε α → Prop} (hinit : I ⟨init, [], []⟩)
    (hstep : ∀ p l p', I p → C p l → Step M p l p' → I p') :
    ∀ labels, Along M init C labels → I (run M init labels) := by
  intro labels
  induction labels using List.reverseRecOn with
  | nil => intro _; exact hinit
  | append_singleton labels l ih =>
    intro h
    obtain ⟨hdone, hl⟩ := h.snoc
    rw [run_snoc]
    exact hstep _ l _ (ih hdone) hl (next_step M _ l)

/-- What the condition says of an operation about to be performed holds of every performed one,
over the trace before it. -/
theorem Along.performed {init : σ} {C : Pool S σ ρ ε α → Label ρ χ θ → Prop}
    {K : List (Entry S σ ρ) → Entry S σ ρ → Prop} {labels : List (Label ρ χ θ)}
    (h : Along M init C labels)
    (hK : ∀ (p : Pool S σ ρ ε α) i c r op k, p.tasks[i]? = some ⟨r, some (.perform op k)⟩ →
      C p (.step i c) → K p.trace ⟨i, r, p.shared, ⟨op, (M.exec p.shared op c).1⟩⟩)
    {past rest : List (Entry S σ ρ)} {e : Entry S σ ρ}
    (he : (run (ε := ε) (α := α) M init labels).trace = past ++ e :: rest) : K past e := by
  refine run_induction M (C := C) (I := fun p => ∀ past e rest, p.trace = past ++ e :: rest →
    K past e) (by simp) ?_ labels h past e rest he
  intro p l p' hp hl hstep
  cases hstep with
  | perform hi =>
    intro past e rest htrace
    rcases snoc_eq_append_cons htrace with ⟨rfl, rfl, -⟩ | ⟨rest', -, hold⟩
    · exact hK p _ _ _ _ _ hi hl
    · exact hp past e rest' hold
  | _ => exact hp

/-- What the condition says of an operation about to be performed and an earlier one holds of every
two performed ones. -/
theorem Along.pairwise {init : σ} {C : Pool S σ ρ ε α → Label ρ χ θ → Prop}
    {R : Entry S σ ρ → Entry S σ ρ → Prop} {labels : List (Label ρ χ θ)}
    (h : Along M init C labels)
    (hR : ∀ (p : Pool S σ ρ ε α) i c r op k, p.tasks[i]? = some ⟨r, some (.perform op k)⟩ →
      C p (.step i c) → ∀ e ∈ p.trace, R e ⟨i, r, p.shared, ⟨op, (M.exec p.shared op c).1⟩⟩) :
    (run (ε := ε) (α := α) M init labels).trace.Pairwise R := by
  refine run_induction M (C := C) (I := fun p => p.trace.Pairwise R) .nil ?_ labels h
  intro p l p' hp hl hstep
  cases hstep with
  | perform hi => exact pairwise_snoc.mpr ⟨hp, hR p _ _ _ _ _ hi hl⟩
  | _ => exact hp

theorem along_true (init : σ) (labels : List (Label ρ χ θ)) :
    Along (ε := ε) (α := α) M init (fun _ _ => True) labels := fun _ _ _ _ => trivial

/-- The invariant rule without a condition on the labels. -/
theorem run_invariant {init : σ} {I : Pool S σ ρ ε α → Prop} (hinit : I ⟨init, [], []⟩)
    (hstep : ∀ p l p', I p → Step M p l p' → I p') (labels : List (Label ρ χ θ)) :
    I (run M init labels) :=
  run_induction M hinit (fun p l p' hp _ => hstep p l p' hp) labels (along_true M init labels)

theorem map_request_set {tasks : List (Task S ρ ε α)} {i : ℕ} {t t' : Task S ρ ε α}
    (hi : tasks[i]? = some t) (ht : t'.request = t.request) :
    (tasks.set i t').map Task.request = tasks.map Task.request := by
  obtain ⟨hlt, rfl⟩ := List.getElem?_eq_some_iff.mp hi
  rw [List.map_set, ht, ← List.getElem_map Task.request, List.set_getElem_self]
  simpa using hlt

theorem next_requests (p : Pool S σ ρ ε α) (l : Label ρ χ θ) :
    (p.next M l).tasks.map Task.request = p.tasks.map Task.request ++ l.received.toList := by
  cases l with
  | spawn r => simp [next, Label.received]
  | step i c =>
    change (step M p i c).tasks.map _ = _ ++ []
    rw [List.append_nil]
    unfold step
    split
    · rename_i r op k h
      exact map_request_set h rfl
    · rfl
  | cancel i =>
    change (cancel p i).tasks.map _ = _ ++ []
    rw [List.append_nil]
    unfold cancel
    split
    · rename_i t h
      exact map_request_set h rfl
    · rfl
  | environment t => simp [next, Label.received]

/-- The tasks serve the requests that were received, in order. -/
theorem run_requests (init : σ) (labels : List (Label ρ χ θ)) :
    (run (ε := ε) (α := α) M init labels).tasks.map Task.request =
      labels.filterMap Label.received := by
  induction labels using List.reverseRecOn with
  | nil => rfl
  | append_singleton labels l ih =>
    rw [run_snoc, next_requests, ih, List.filterMap_append]
    cases l <;> rfl

/-- Every task serves a request that was received. -/
theorem run_spawned (init : σ) (labels : List (Label ρ χ θ)) :
    ∀ t ∈ (run (ε := ε) (α := α) M init labels).tasks, Label.spawn t.request ∈ labels := by
  intro t ht
  have hreceived := List.mem_map_of_mem (f := Task.request) ht
  rw [run_requests] at hreceived
  obtain ⟨l, hl, hr⟩ := List.mem_filterMap.mp hreceived
  cases l <;> cases hr
  exact hl

/-- The trace is what the programs of the tasks do, answered by `exec`. -/
structure Conforms (p : Pool S σ ρ ε α) : Prop where
  program : ∀ i t, p.tasks[i]? = some t →
    ∃ q, Program.Runs (M.handler t.request) (eventsOf p.trace i) q ∧
      (t.program = some q ∨ t.program = none)
  request : ∀ e ∈ p.trace, ∃ t, p.tasks[e.task]? = some t ∧ t.request = e.request
  answered : ∀ e ∈ p.trace, ∃ c, e.event.answer = (M.exec e.before e.event.op c).1

theorem Conforms.task_lt {p : Pool S σ ρ ε α} (hp : Conforms M p) :
    ∀ e ∈ p.trace, e.task < p.tasks.length := by
  intro e he
  obtain ⟨t, ht, -⟩ := hp.request e he
  exact (List.getElem?_eq_some_iff.mp ht).1

/-- The operations of a task are for its request. -/
theorem Conforms.request_of_task {p : Pool S σ ρ ε α} (hp : Conforms M p) {e : Entry S σ ρ}
    {t : Task S ρ ε α} (he : e ∈ p.trace) (ht : p.tasks[e.task]? = some t) :
    e.request = t.request := by
  obtain ⟨t', ht', hr⟩ := hp.request e he
  rw [ht] at ht'
  cases ht'
  exact hr.symm

/-- All operations of a task are for the same request. -/
theorem Conforms.request_eq {p : Pool S σ ρ ε α} (hp : Conforms M p) {e e' : Entry S σ ρ}
    (he : e ∈ p.trace) (he' : e' ∈ p.trace) (h : e.task = e'.task) : e.request = e'.request := by
  obtain ⟨t, ht, hr⟩ := hp.request e' he'
  rw [hp.request_of_task M he (h ▸ ht), hr]

theorem eventsOf_eq_nil {trace : List (Entry S σ ρ)} {n i : ℕ} (h : ∀ e ∈ trace, e.task < n)
    (hi : n ≤ i) : eventsOf trace i = [] := by
  rw [eventsOf, List.map_eq_nil_iff, List.filter_eq_nil_iff]
  intro e he
  have := h e he
  simp only [decide_eq_true_eq]
  omega

/-- A task keeps its request when another program is put in its place. -/
theorem request_set {tasks : List (Task S ρ ε α)} {i j : ℕ} {t t' : Task S ρ ε α} {r : ρ}
    (hi : tasks[i]? = some t) (ht' : t'.request = t.request)
    (h : ∃ u, tasks[j]? = some u ∧ u.request = r) :
    ∃ u, (tasks.set i t')[j]? = some u ∧ u.request = r := by
  obtain ⟨u, hu, hur⟩ := h
  by_cases hij : i = j
  · subst hij
    rw [hi] at hu
    cases hu
    exact ⟨t', by simp [(List.getElem?_eq_some_iff.mp hi).1], ht'.trans hur⟩
  · exact ⟨u, by rw [List.getElem?_set_ne hij, hu], hur⟩

theorem Conforms.step {p p' : Pool S σ ρ ε α} {l : Label ρ χ θ} (hp : Conforms M p)
    (h : Step M p l p') : Conforms M p' := by
  cases h with
  | spawn r =>
    refine ⟨?_, ?_, hp.answered⟩
    · intro i t ht
      rw [List.getElem?_append] at ht
      split_ifs at ht with hi
      · exact hp.program i t ht
      · have hi' : p.tasks.length ≤ i := by omega
        obtain rfl : ⟨r, some (M.handler r)⟩ = t :=
          (List.mem_singleton.mp (List.mem_of_getElem? ht)).symm
        refine ⟨M.handler r, ?_, Or.inl rfl⟩
        rw [eventsOf_eq_nil hp.task_lt hi']
        exact .start
    · intro e he
      obtain ⟨t, ht, htr⟩ := hp.request e he
      exact ⟨t, by rw [List.getElem?_append_left (List.getElem?_eq_some_iff.mp ht).1, ht], htr⟩
  | @perform i c r op k h =>
    refine ⟨?_, ?_, ?_⟩
    · intro j t ht
      rw [List.getElem?_set] at ht
      split_ifs at ht with hij hlt
      · subst hij
        cases ht
        obtain ⟨q, hq, hprog⟩ := hp.program i _ h
        obtain rfl : .perform op k = q := by simpa using hprog
        refine ⟨_, ?_, Or.inl rfl⟩
        rw [eventsOf_append, eventsOf_singleton_self]
        exact .next _ hq
      · obtain ⟨q, hq, hprog⟩ := hp.program j t ht
        refine ⟨q, ?_, hprog⟩
        rw [eventsOf_append, eventsOf_singleton_ne hij, List.append_nil]
        exact hq
    · intro e he
      rcases List.mem_append.mp he with he | he
      · exact request_set h rfl (hp.request e he)
      · rw [List.mem_singleton.mp he]
        exact request_set h rfl ⟨_, h, rfl⟩
    · intro e he
      rcases List.mem_append.mp he with he | he
      · exact hp.answered e he
      · rw [List.mem_singleton.mp he]
        exact ⟨c, rfl⟩
  | @cancel i t h =>
    refine ⟨?_, ?_, hp.answered⟩
    · intro j t' ht
      rw [List.getElem?_set] at ht
      split_ifs at ht with hij hlt
      · subst hij
        cases ht
        obtain ⟨q, hq, -⟩ := hp.program i t h
        exact ⟨q, hq, Or.inr rfl⟩
      · exact hp.program j t' ht
    · intro e he
      exact request_set h rfl (hp.request e he)
  | environment t => exact ⟨hp.program, hp.request, hp.answered⟩
  | idle => exact hp

theorem run_conforms (init : σ) (labels : List (Label ρ χ θ)) : Conforms M (run M init labels) :=
  run_invariant M ⟨by simp, by simp, by simp⟩ (fun _ _ _ hp h => hp.step M h) labels

section Specified

variable {M} {pre : ρ → List (Event S) → S.Op → Prop}
  {post : ρ → List (Event S) → Except ε α → Prop}

/-- What a request's program promises of an operation holds of every performed one, over the
earlier events of the same task. -/
theorem Conforms.operation_spec {p : Pool S σ ρ ε α} (hp : Conforms M p)
    (hspec : ∀ r, (M.handler r).Spec (pre r) (post r) []) {past rest : List (Entry S σ ρ)}
    {e : Entry S σ ρ} (he : p.trace = past ++ e :: rest) :
    pre e.request (eventsOf past e.task) e.event.op := by
  obtain ⟨t, ht, hreq⟩ := hp.request e (by simp [he])
  obtain ⟨q, hq, -⟩ := hp.program e.task t ht
  rw [hreq] at hq
  refine hq.pre_of_mem (hspec e.request) _ e.event (eventsOf rest e.task) ?_
  rw [he, eventsOf_append, ← List.singleton_append, eventsOf_append, eventsOf_singleton_self]
  rfl

/-- A task that has ended ran its program to the end. -/
theorem Conforms.outcome_runs {p : Pool S σ ρ ε α} (hp : Conforms M p) {i : ℕ} {t : Task S ρ ε α}
    {r : Except ε α} (ht : p.tasks[i]? = some t) (hr : p.outcome i = some r) :
    ∃ q, Program.Runs (M.handler t.request) (eventsOf p.trace i) q ∧ q.outcome = some r := by
  obtain ⟨q, hq, hprog⟩ := hp.program i t ht
  rw [outcome, ht] at hr
  rcases hprog with hprog | hprog <;> simp [hprog] at hr
  exact ⟨q, hq, hr⟩

/-- What a request's program promises of its outcome holds once the task has ended. -/
theorem Conforms.outcome_spec {p : Pool S σ ρ ε α} (hp : Conforms M p)
    (hspec : ∀ r, (M.handler r).Spec (pre r) (post r) []) {i : ℕ} {t : Task S ρ ε α}
    {r : Except ε α} (ht : p.tasks[i]? = some t) (hr : p.outcome i = some r) :
    post t.request (eventsOf p.trace i) r := by
  obtain ⟨q, hq, hout⟩ := hp.outcome_runs ht hr
  exact hq.outcome_spec (hspec t.request) hout

/-- What a request's program promises of the operation it is about to perform. -/
theorem Conforms.pending_spec {p : Pool S σ ρ ε α} (hp : Conforms M p)
    (hspec : ∀ r, (M.handler r).Spec (pre r) (post r) []) {i : ℕ} {r : ρ} {op : S.Op}
    {k : S.Answer op → Program S ε α} (h : p.tasks[i]? = some ⟨r, some (.perform op k)⟩) :
    pre r (eventsOf p.trace i) op := by
  obtain ⟨q, hq, hprog⟩ := hp.program i _ h
  obtain rfl : .perform op k = q := by simpa using hprog
  exact (hq.spec (hspec r)).1

/-- The invariant rule for properties of the trace and the shared state: only performed
operations and the environment matter, and an operation comes with what its program promises. -/
theorem run_trace_induction {init : σ} {C : Pool S σ ρ ε α → Label ρ χ θ → Prop}
    {J : List (Entry S σ ρ) → σ → Prop} (hspec : ∀ r, (M.handler r).Spec (pre r) (post r) [])
    (hinit : J [] init)
    (hperform : ∀ (p : Pool S σ ρ ε α) i c r op k, p.tasks[i]? = some ⟨r, some (.perform op k)⟩ →
      pre r (eventsOf p.trace i) op → C p (.step i c) → J p.trace p.shared →
      J (p.trace ++ [⟨i, r, p.shared, ⟨op, (M.exec p.shared op c).1⟩⟩]) (M.exec p.shared op c).2)
    (henvironment : ∀ p t, C p (.environment t) → J p.trace p.shared →
      J p.trace (M.environment t p.shared)) (labels : List (Label ρ χ θ))
    (h : Along M init C labels) : J (run M init labels).trace (run M init labels).shared := by
  refine (run_induction M (C := C) (I := fun p => Conforms M p ∧ J p.trace p.shared) ?_ ?_ labels
    h).2
  · exact ⟨run_conforms M init [], hinit⟩
  · rintro p l p' ⟨hconf, hp⟩ hl hstep
    refine ⟨hconf.step M hstep, ?_⟩
    cases hstep with
    | spawn r => exact hp
    | perform hi => exact hperform p _ _ _ _ _ hi (hconf.pending_spec hspec hi) hl hp
    | cancel hi => exact hp
    | environment t => exact henvironment p t hl hp
    | idle => exact hp

end Specified

/-- A label that adds an entry to the trace performed it. -/
theorem Step.performed {p p' : Pool S σ ρ ε α} {l : Label ρ χ θ} {e : Entry S σ ρ}
    (h : Step M p l p') (he : p'.trace = p.trace ++ [e]) :
    ∃ c k, p.tasks[e.task]? = some ⟨e.request, some (.perform e.event.op k)⟩ ∧
      e.before = p.shared ∧ e.event.answer = (M.exec p.shared e.event.op c).1 ∧
      p'.shared = (M.exec p.shared e.event.op c).2 := by
  cases h with
  | @perform i c r op k hi =>
    obtain rfl := List.singleton_inj.mp (List.append_cancel_left he)
    exact ⟨c, k, hi, rfl, rfl, rfl⟩
  | _ => simp at he

theorem outcome_congr {p p' : Pool S σ ρ ε α} {i : ℕ} (h : p'.tasks[i]? = p.tasks[i]?) :
    p'.outcome i = p.outcome i := by
  rw [outcome, outcome, h]

/-- A task that has ended had ended before, was spawned, or has performed its last operation. -/
theorem Step.ended {p p' : Pool S σ ρ ε α} {l : Label ρ χ θ} (h : Step M p l p') {j : ℕ}
    {r : Except ε α} (hr : p'.outcome j = some r) :
    p.outcome j = some r ∨ (p.tasks.length ≤ j ∧ p'.trace = p.trace) ∨
      ∃ e c, e.task = j ∧ p'.trace = p.trace ++ [e] ∧
        p'.shared = (M.exec p.shared e.event.op c).2 := by
  cases h with
  | spawn ρ =>
    by_cases hj : j < p.tasks.length
    · rw [outcome_congr (List.getElem?_append_left hj)] at hr
      exact Or.inl hr
    · exact Or.inr (Or.inl ⟨Nat.le_of_not_lt hj, rfl⟩)
  | @perform i c ρ op k hi =>
    by_cases hij : i = j
    · exact Or.inr (Or.inr ⟨_, c, hij, rfl, rfl⟩)
    · rw [outcome_congr (List.getElem?_set_ne hij)] at hr
      exact Or.inl hr
  | @cancel i t hi =>
    by_cases hij : i = j
    · subst hij
      have hlt := (List.getElem?_eq_some_iff.mp hi).1
      simp [outcome, hlt] at hr
    · rw [outcome_congr (List.getElem?_set_ne hij)] at hr
      exact Or.inl hr
  | environment t => exact Or.inl hr
  | idle => exact Or.inl hr

theorem Step.trace_grows {p p' : Pool S σ ρ ε α} {l : Label ρ χ θ} (h : Step M p l p') :
    p.trace <+: p'.trace := by
  cases h with
  | perform hi => exact List.prefix_append _ _
  | _ => exact List.prefix_refl _

/-- The trace only grows. -/
theorem run_trace_grows (init : σ) (done rest : List (Label ρ χ θ)) :
    (run (ε := ε) (α := α) M init done).trace <+:
      (run (ε := ε) (α := α) M init (done ++ rest)).trace := by
  induction rest using List.reverseRecOn with
  | nil => simp
  | append_singleton rest l ih =>
    rw [← List.append_assoc, run_snoc]
    exact ih.trans (next_step M _ l).trace_grows

/-- Where in the run an operation was performed. -/
theorem run_entry {init : σ} {labels : List (Label ρ χ θ)} {past rest : List (Entry S σ ρ)}
    {e : Entry S σ ρ} (he : (run (ε := ε) (α := α) M init labels).trace = past ++ e :: rest) :
    ∃ done more, labels = done ++ more ∧ (run (ε := ε) (α := α) M init done).trace = past ∧
      (run (ε := ε) (α := α) M init done).shared = e.before := by
  induction labels using List.reverseRecOn generalizing rest with
  | nil => simp [run] at he
  | append_singleton labels l ih =>
    have hshort {rest} (he : (run (ε := ε) (α := α) M init labels).trace = past ++ e :: rest) :
        ∃ done more, labels ++ [l] = done ++ more ∧
          (run (ε := ε) (α := α) M init done).trace = past ∧
          (run (ε := ε) (α := α) M init done).shared = e.before := by
      obtain ⟨done, more, rfl, hdone⟩ := ih he
      exact ⟨done, more ++ [l], by simp, hdone⟩
    rw [run_snoc] at he
    have hstep := next_step M (run (ε := ε) (α := α) M init labels) l
    generalize (run M init labels).next M l = p' at hstep he
    cases hstep with
    | perform hi =>
      rcases snoc_eq_append_cons he with ⟨rfl, rfl, -⟩ | ⟨rest', -, htrace⟩
      · exact ⟨labels, _, rfl, rfl, rfl⟩
      · exact hshort htrace
    | spawn r => exact hshort he
    | cancel hi => exact hshort he
    | environment t => exact hshort he
    | idle => exact hshort he

/-- Where in the run an operation was performed, and by which label. -/
theorem run_performed {init : σ} {labels : List (Label ρ χ θ)} {past rest : List (Entry S σ ρ)}
    {e : Entry S σ ρ} (he : (run (ε := ε) (α := α) M init labels).trace = past ++ e :: rest) :
    ∃ done c more, labels = done ++ .step e.task c :: more ∧
      (run (ε := ε) (α := α) M init done).trace = past ∧
      (run (ε := ε) (α := α) M init done).shared = e.before ∧
      e.task < (run (ε := ε) (α := α) M init done).tasks.length ∧
      e.event.answer = (M.exec e.before e.event.op c).1 ∧
      (run (ε := ε) (α := α) M init (done ++ [.step e.task c])).shared =
        (M.exec e.before e.event.op c).2 := by
  induction labels using List.reverseRecOn generalizing rest with
  | nil => simp [run] at he
  | append_singleton labels l ih =>
    by_cases hold : ∃ rest', (run (ε := ε) (α := α) M init labels).trace = past ++ e :: rest'
    · obtain ⟨rest', hold⟩ := hold
      obtain ⟨done, c, more, rfl, hdone⟩ := ih hold
      exact ⟨done, c, more ++ [l], by simp, hdone⟩
    · rw [run_snoc] at he
      have hstep := next_step M (run (ε := ε) (α := α) M init labels) l
      generalize hp : (run M init labels).next M l = p' at hstep he
      cases hstep with
      | @perform i c r op k hi =>
        rcases snoc_eq_append_cons he with ⟨rfl, rfl, -⟩ | ⟨rest', -, htrace⟩
        · refine ⟨labels, c, [], rfl, rfl, rfl, (List.getElem?_eq_some_iff.mp hi).1, rfl, ?_⟩
          rw [run_snoc, hp]
        · exact absurd ⟨rest', htrace⟩ hold
      | _ => exact absurd ⟨rest, he⟩ hold

theorem next_tasks_length (p : Pool S σ ρ ε α) (l : Label ρ χ θ) :
    p.tasks.length ≤ (p.next M l).tasks.length := by
  have hrequests := congrArg List.length (next_requests M p l)
  simp only [List.length_map, List.length_append] at hrequests
  omega

theorem run_tasks_length (init : σ) (done more : List (Label ρ χ θ)) :
    (run (ε := ε) (α := α) M init done).tasks.length ≤
      (run (ε := ε) (α := α) M init (done ++ more)).tasks.length := by
  induction more using List.reverseRecOn with
  | nil => simp
  | append_singleton more l ih =>
    rw [← List.append_assoc, run_snoc]
    exact ih.trans (next_tasks_length M _ l)

/-- A task that was spawned later performs its operations later. -/
theorem run_performed_since {init : σ} {done more : List (Label ρ χ θ)}
    {past rest : List (Entry S σ ρ)} {e : Entry S σ ρ}
    (he : (run (ε := ε) (α := α) M init (done ++ more)).trace = past ++ e :: rest)
    (hlater : (run (ε := ε) (α := α) M init done).tasks.length ≤ e.task) :
    ∃ mid c rest', more = mid ++ .step e.task c :: rest' ∧
      (run (ε := ε) (α := α) M init (done ++ mid)).shared = e.before ∧
      e.event.answer = (M.exec e.before e.event.op c).1 ∧
      (run (ε := ε) (α := α) M init (done ++ (mid ++ [.step e.task c]))).shared =
        (M.exec e.before e.event.op c).2 := by
  obtain ⟨first, c, rest', hlabels, -, hshared, htask, hanswer, hafter⟩ := run_performed M he
  rcases List.append_eq_append_iff.mp hlabels with ⟨mid, rfl, rfl⟩ | ⟨mid, rfl, hmid⟩
  · refine ⟨mid, c, rest', rfl, hshared, hanswer, ?_⟩
    rw [← List.append_assoc]
    exact hafter
  · have hgrown := run_tasks_length (ε := ε) (α := α) M init first mid
    omega

/-- What a label that lets a task act does to a run. -/
theorem run_step_cases (init : σ) (done : List (Label ρ χ θ)) (i : ℕ) (c : χ) :
    (run (ε := ε) (α := α) M init (done ++ [.step i c])).shared =
        (run (ε := ε) (α := α) M init done).shared ∨
      ∃ r op k, (run (ε := ε) (α := α) M init done).tasks[i]? = some ⟨r, some (.perform op k)⟩ ∧
        (run (ε := ε) (α := α) M init (done ++ [.step i c])).shared =
          (M.exec (run (ε := ε) (α := α) M init done).shared op c).2 ∧
        ⟨op, (M.exec (run (ε := ε) (α := α) M init done).shared op c).1⟩ ∈
          eventsOf (run (ε := ε) (α := α) M init (done ++ [.step i c])).trace i := by
  rw [run_snoc]
  have hstep := next_step M (run (ε := ε) (α := α) M init done) (.step i c)
  generalize (run (ε := ε) (α := α) M init done).next M (.step i c) = p' at hstep
  cases hstep with
  | perform hi =>
    refine Or.inr ⟨_, _, _, hi, rfl, ?_⟩
    rw [eventsOf_append, eventsOf_singleton_self]
    exact List.mem_append_right _ (List.mem_singleton_self _)
  | idle => exact Or.inl rfl

/-- The first so many events of a task were all of them at some point of the trace. -/
theorem eventsOf_eq_append_cons {trace : List (Entry S σ ρ)} {i : ℕ} {before after : List (Event S)}
    {x : Event S} (h : eventsOf trace i = before ++ x :: after) :
    ∃ past e rest, trace = past ++ e :: rest ∧ e.task = i ∧ eventsOf past i = before ∧
      e.event = x := by
  obtain ⟨first, second, hfilter, hfirst, hsecond⟩ := List.map_eq_append_iff.mp h
  obtain ⟨e, later, rfl, he, -⟩ := List.map_eq_cons_iff.mp hsecond
  obtain ⟨past, rest, rfl, hpast, hrest⟩ := List.filter_eq_append_iff.mp hfilter
  obtain ⟨skipped, rest', rfl, hskipped, htask, -⟩ := List.filter_eq_cons_iff.mp hrest
  refine ⟨past ++ skipped, e, rest', by simp, by simpa using htask, ?_, he⟩
  rw [eventsOf, List.filter_append, hpast, List.filter_eq_nil_iff.mpr hskipped, List.append_nil,
    hfirst]

/-- What the condition says of an operation about to be performed holds of every event of a task,
over the earlier events of the task. -/
theorem Along.successively {init : σ} {C : Pool S σ ρ ε α → Label ρ χ θ → Prop}
    {K : ρ → List (Event S) → Event S → Prop} {labels : List (Label ρ χ θ)}
    (h : Along M init C labels)
    (hK : ∀ (p : Pool S σ ρ ε α) i c r op k, p.tasks[i]? = some ⟨r, some (.perform op k)⟩ →
      C p (.step i c) → K r (eventsOf p.trace i) ⟨op, (M.exec p.shared op c).1⟩)
    {i : ℕ} {t : Task S ρ ε α} (ht : (run M init labels).tasks[i]? = some t) :
    Successively (K t.request) (eventsOf (run (ε := ε) (α := α) M init labels).trace i) := by
  intro before x after hevents
  obtain ⟨past, e, rest, htrace, rfl, rfl, rfl⟩ := eventsOf_eq_append_cons hevents
  rw [← (run_conforms M init labels).request_of_task M (by simp [htrace]) ht]
  exact h.performed M (K := fun past e => K e.request (eventsOf past e.task) e.event) hK htrace

/-! ## Tasks on their own -/

/-- A request is received and served for `n` operations, with nothing in between. -/
def alone (p : Pool S σ ρ ε α) (r : ρ) (choices : ℕ → χ) (n : ℕ) : List (Label ρ χ θ) :=
  .spawn r :: (List.range n).map fun k => .step p.tasks.length (choices k)

/-- The operations of one task, with nothing in between, are the execution of its program. -/
theorem steps_execute {p : Pool S σ ρ ε α} {i : ℕ} {r : ρ} {q : Program S ε α}
    (hi : p.tasks[i]? = some ⟨r, some q⟩) (choices : ℕ → χ) :
    ∃ n, ∀ p', p' = ((List.range n).map fun k => Label.step i (choices k)).foldl (next M) p →
      p'.outcome i = some (q.execute M.exec choices p.shared).outcome ∧
      p'.shared = (q.execute M.exec choices p.shared).final := by
  induction q generalizing p choices with
  | pure a =>
    refine ⟨0, ?_⟩
    rintro p' rfl
    exact ⟨by simp [outcome, hi, Program.outcome, Program.execute], rfl⟩
  | fail e =>
    refine ⟨0, ?_⟩
    rintro p' rfl
    exact ⟨by simp [outcome, hi, Program.outcome, Program.execute], rfl⟩
  | perform op k ih =>
    have hlt := (List.getElem?_eq_some_iff.mp hi).1
    obtain ⟨n, hn⟩ := @ih (M.exec p.shared op (choices 0)).1
      { shared := (M.exec p.shared op (choices 0)).2
        tasks := p.tasks.set i ⟨r, some (k (M.exec p.shared op (choices 0)).1)⟩
        trace := p.trace ++ [⟨i, r, p.shared, ⟨op, (M.exec p.shared op (choices 0)).1⟩⟩] }
      (by simp [hlt]) fun m => choices (m + 1)
    refine ⟨n + 1, ?_⟩
    rintro p' rfl
    apply hn
    rw [List.range_succ_eq_map, List.map_cons, List.foldl_cons, List.map_map]
    congr 1
    simp only [next, step, hi]

/-- A request that is served with nothing in between gets the outcome of its program's execution,
which leaves the state. -/
theorem run_alone (init : σ) (labels : List (Label ρ χ θ)) (r : ρ) (choices : ℕ → χ) :
    ∃ n, ∀ p p', p = run M init labels → p' = run M init (labels ++ alone p r choices n) →
      p'.outcome p.tasks.length = some ((M.handler r).execute M.exec choices p.shared).outcome ∧
      p'.shared = ((M.handler r).execute M.exec choices p.shared).final := by
  obtain ⟨n, hn⟩ := steps_execute M
    (p := { run (ε := ε) (α := α) M init labels with
      tasks := (run M init labels).tasks ++ [⟨r, some (M.handler r)⟩] })
    (i := (run M init labels).tasks.length) (q := M.handler r) (r := r) (by simp) choices
  refine ⟨n, ?_⟩
  rintro p p' rfl rfl
  apply hn
  rw [run, List.foldl_append]
  rfl

end Pool

end AgentExchange.Library
