import AgentExchange.Library.TaskPool

/-!
# Runs with the tasks of others taken out

`purge` keeps the labels of the tasks in question and numbers these tasks as if no
others had been started. `AlongFrom.purge` is the unwinding rule: if the shared states
of both runs stay related whatever the others do, and related states give the tasks in
question the same answers, then these tasks do the same in both runs.
-/
namespace AgentExchange.Library.Pool

section Lists

variable {β : Type} {p : β → Bool} {xs : List β} {i : ℕ} {a b : β}

/-- Where the element stands among those that are kept. -/
theorem getElem?_filter_countP (hi : xs[i]? = some a) (ha : p a = true) :
    (xs.filter p)[(xs.take i).countP p]? = some a := by
  induction xs generalizing i with
  | nil => cases hi
  | cons x xs ih =>
    cases i with
    | zero =>
      cases hi
      rw [List.filter_cons_of_pos ha]
      rfl
    | succ i =>
      rw [List.take_succ_cons, List.countP_cons]
      by_cases hx : p x = true
      · rw [List.filter_cons_of_pos hx, if_pos hx]
        exact ih hi
      · rw [List.filter_cons_of_neg hx, if_neg hx]
        exact ih hi

theorem filter_set_of_pos (hi : xs[i]? = some a) (ha : p a = true) (hb : p b = true) :
    (xs.set i b).filter p = (xs.filter p).set ((xs.take i).countP p) b := by
  induction xs generalizing i with
  | nil => cases hi
  | cons x xs ih =>
    cases i with
    | zero =>
      cases hi
      rw [List.filter_cons_of_pos ha]
      exact List.filter_cons_of_pos hb
    | succ i =>
      rw [List.take_succ_cons, List.countP_cons, List.set_cons_succ]
      by_cases hx : p x = true
      · rw [List.filter_cons_of_pos hx, List.filter_cons_of_pos hx, if_pos hx, ih hi]
        rfl
      · rw [List.filter_cons_of_neg hx, List.filter_cons_of_neg hx, if_neg hx, ih hi]
        rfl

theorem filter_set_of_neg (hi : xs[i]? = some a) (ha : p a = false) (hb : p b = false) :
    (xs.set i b).filter p = xs.filter p := by
  induction xs generalizing i with
  | nil => rfl
  | cons x xs ih =>
    cases i with
    | zero =>
      cases hi
      rw [List.set_cons_zero, List.filter_cons_of_neg (by simp [hb]),
        List.filter_cons_of_neg (by simp [ha])]
    | succ i => rw [List.set_cons_succ, List.filter_cons, List.filter_cons, ih hi]

end Lists

variable {S : Signature} {σ ρ ε α χ θ : Type}

/-- The label as the tasks in question see it; `requests` are those of the tasks started
before. -/
def seen (mine : ρ → Bool) (requests : List ρ) : Label ρ χ θ → Option (Label ρ χ θ)
  | .spawn r => if mine r then some (.spawn r) else none
  | .step i c =>
    if (requests[i]?).any mine then some (.step ((requests.take i).countP mine) c) else none
  | .cancel i =>
    if (requests[i]?).any mine then some (.cancel ((requests.take i).countP mine)) else none
  | .environment t => some (.environment t)

def purge (mine : ρ → Bool) : List ρ → List (Label ρ χ θ) → List (Label ρ χ θ)
  | _, [] => []
  | requests, l :: rest =>
    (seen mine requests l).toList ++ purge mine (requests ++ l.received.toList) rest

/-- The tasks in question. -/
def tasksOf (mine : ρ → Bool) (p : Pool S σ ρ ε α) : List (Task S ρ ε α) :=
  p.tasks.filter fun t => mine t.request

/-- Both runs have the tasks in question, as far with their programs, on related states; every
task performs operations allowed for its request. -/
structure Purged (mine : ρ → Bool) (Q : ρ → S.Op → Prop) (R : σ → σ → Prop)
    (p q : Pool S σ ρ ε α) : Prop where
  tasks : q.tasks = tasksOf mine p
  shared : R p.shared q.shared
  only : ∀ t ∈ p.tasks, ∀ program, t.program = some program → program.Only (Q t.request)

section Unwinding

variable {M : Semantics S σ ρ ε α χ θ} {mine : ρ → Bool} {Q : ρ → S.Op → Prop} {R : σ → σ → Prop}
  {p q : Pool S σ ρ ε α}

theorem take_map_countP (requests : List (Task S ρ ε α)) (i : ℕ) :
    ((requests.map Task.request).take i).countP mine =
      (requests.take i).countP fun t => mine t.request := by
  rw [← List.map_take, List.countP_map]
  rfl

theorem Purged.getElem? (h : Purged mine Q R p q) {i : ℕ} {t : Task S ρ ε α}
    (hi : p.tasks[i]? = some t) (ht : mine t.request = true) :
    q.tasks[((p.tasks.map Task.request).take i).countP mine]? = some t := by
  rw [h.tasks, take_map_countP]
  exact getElem?_filter_countP hi ht

theorem Purged.only_set (h : Purged mine Q R p q) {i : ℕ} {t : Task S ρ ε α}
    (ht : ∀ program, t.program = some program → program.Only (Q t.request)) :
    ∀ u ∈ p.tasks.set i t, ∀ program, u.program = some program → program.Only (Q u.request) := by
  intro u hu
  rcases List.mem_or_eq_of_mem_set hu with hu | rfl
  · exact h.only u hu
  · exact ht

/-- A task in question is put in another state in both runs. -/
theorem Purged.set (h : Purged mine Q R p q) {i : ℕ} {t t' : Task S ρ ε α} {s s' : σ}
    {trace trace' : List (Entry S σ ρ)} (hi : p.tasks[i]? = some t) (ht : mine t.request = true)
    (hreq : t'.request = t.request) (hR : R s s')
    (hQ : ∀ program, t'.program = some program → program.Only (Q t'.request)) :
    Purged mine Q R ⟨s, p.tasks.set i t', trace⟩
      ⟨s', q.tasks.set (((p.tasks.map Task.request).take i).countP mine) t', trace'⟩ := by
  refine ⟨?_, hR, h.only_set hQ⟩
  change q.tasks.set _ t' = (p.tasks.set i t').filter _
  rw [filter_set_of_pos hi ht (by rw [hreq]; exact ht), h.tasks, take_map_countP]
  rfl

/-- Another task is put in another state in the full run. -/
theorem Purged.set_other (h : Purged mine Q R p q) {i : ℕ} {t t' : Task S ρ ε α} {s : σ}
    {trace : List (Entry S σ ρ)} (hi : p.tasks[i]? = some t) (ht : mine t.request = false)
    (hreq : t'.request = t.request) (hR : R s q.shared)
    (hQ : ∀ program, t'.program = some program → program.Only (Q t'.request)) :
    Purged mine Q R ⟨s, p.tasks.set i t', trace⟩ q := by
  refine ⟨?_, hR, h.only_set hQ⟩
  change q.tasks = (p.tasks.set i t').filter _
  rw [filter_set_of_neg hi ht (by rw [hreq]; exact ht), h.tasks]
  rfl

/-- Performed operations of a task in question, in both runs. -/
theorem Purged.step (h : Purged mine Q R p q) {i : ℕ} {c : χ} {t : Task S ρ ε α}
    (hi : p.tasks[i]? = some t) (ht : mine t.request = true)
    (hmine : ∀ op k, t.program = some (.perform op k) → Q t.request op →
      (M.exec p.shared op c).1 = (M.exec q.shared op c).1 ∧
        R (M.exec p.shared op c).2 (M.exec q.shared op c).2) :
    Purged mine Q R (p.step M i c)
      (q.step M (((p.tasks.map Task.request).take i).countP mine) c) := by
  have hj := h.getElem? hi ht
  obtain ⟨r, program⟩ := t
  match program with
  | none =>
    rw [Pool.step, Pool.step, hi, hj]
    exact h
  | some (.pure a) =>
    rw [Pool.step, Pool.step, hi, hj]
    exact h
  | some (.fail e) =>
    rw [Pool.step, Pool.step, hi, hj]
    exact h
  | some (.perform op k) =>
    have honly := h.only _ (List.mem_of_getElem? hi) _ rfl
    obtain ⟨hanswer, hR⟩ := hmine op k rfl honly.1
    rw [Pool.step, Pool.step, hi, hj]
    dsimp only
    rw [← hanswer]
    refine h.set hi ht rfl hR ?_
    intro program hprogram
    cases hprogram
    exact honly.2 _

theorem Purged.step_other (h : Purged mine Q R p q) {i : ℕ} {c : χ} {t : Task S ρ ε α}
    (hi : p.tasks[i]? = some t) (ht : mine t.request = false)
    (hother : ∀ op, Q t.request op → R (M.exec p.shared op c).2 q.shared) :
    Purged mine Q R (p.step M i c) q := by
  obtain ⟨r, program⟩ := t
  match program with
  | none =>
    rw [Pool.step, hi]
    exact h
  | some (.pure a) =>
    rw [Pool.step, hi]
    exact h
  | some (.fail e) =>
    rw [Pool.step, hi]
    exact h
  | some (.perform op k) =>
    have honly := h.only _ (List.mem_of_getElem? hi) _ rfl
    rw [Pool.step, hi]
    refine h.set_other hi ht rfl (hother op honly.1) ?_
    intro program hprogram
    cases hprogram
    exact honly.2 _

/-- One label. -/
theorem Purged.next (h : Purged mine Q R p q) (l : Label ρ χ θ)
    (hhandler : ∀ r, l = .spawn r → (M.handler r).Only (Q r))
    (hmine : ∀ i c r op k, l = .step i c → p.tasks[i]? = some ⟨r, some (.perform op k)⟩ →
      mine r = true → Q r op → (M.exec p.shared op c).1 = (M.exec q.shared op c).1 ∧
        R (M.exec p.shared op c).2 (M.exec q.shared op c).2)
    (hother : ∀ r op c, mine r = false → Q r op → R (M.exec p.shared op c).2 q.shared)
    (henvironment : ∀ t, R (M.environment t p.shared) (M.environment t q.shared)) :
    Purged mine Q R (p.next M l)
      ((seen mine (p.tasks.map Task.request) l).toList.foldl (Pool.next M) q) := by
  cases l with
  | spawn r =>
    have hnew : ∀ u ∈ p.tasks ++ [⟨r, some (M.handler r)⟩], ∀ program,
        u.program = some program → program.Only (Q u.request) := by
      intro u hu program hprogram
      rcases List.mem_append.mp hu with hu | hu
      · exact h.only u hu program hprogram
      · rw [List.mem_singleton.mp hu] at hprogram ⊢
        cases hprogram
        exact hhandler r rfl
    have hfilter : tasksOf mine (p.next M (.spawn r)) =
        tasksOf mine p ++ if mine r then [⟨r, some (M.handler r)⟩] else [] := by
      rw [tasksOf, Pool.next, List.filter_append, List.filter_singleton, cond_eq_ite]
      rfl
    rw [seen]
    split_ifs at hfilter ⊢
    · exact ⟨by rw [hfilter, ← h.tasks]; rfl, h.shared, hnew⟩
    · exact ⟨by rw [hfilter, ← h.tasks, List.append_nil]; rfl, h.shared, hnew⟩
  | step i c =>
    rw [seen, List.getElem?_map]
    cases hi : p.tasks[i]? with
    | none =>
      change Purged mine Q R (p.step M i c) q
      rw [Pool.step, hi]
      exact h
    | some t =>
      rw [Option.map_some, Option.any_some]
      split_ifs with ht
      · refine h.step hi ht fun op k hprogram hop => ?_
        obtain ⟨r, program⟩ := t
        obtain rfl : program = some (.perform op k) := hprogram
        exact hmine i c r op k rfl hi ht hop
      · have ht' : mine t.request = false := by simpa using ht
        exact h.step_other hi ht' fun op hop => hother _ op c ht' hop
  | cancel i =>
    rw [seen, List.getElem?_map]
    cases hi : p.tasks[i]? with
    | none =>
      change Purged mine Q R (p.cancel i) q
      rw [Pool.cancel, hi]
      exact h
    | some t =>
      rw [Option.map_some, Option.any_some]
      split_ifs with ht
      · change Purged mine Q R (p.cancel i) (q.cancel _)
        rw [Pool.cancel, Pool.cancel, hi, h.getElem? hi ht]
        exact h.set hi ht rfl h.shared fun _ hprogram => by cases hprogram
      · change Purged mine Q R (p.cancel i) q
        rw [Pool.cancel, hi]
        exact h.set_other hi (by simpa using ht) rfl h.shared fun _ hprogram => by cases hprogram
  | environment t => exact ⟨h.tasks, henvironment t, h.only⟩

/-- The unwinding rule. -/
theorem AlongFrom.purge {C : Pool S σ ρ ε α → Label ρ χ θ → Prop} {labels : List (Label ρ χ θ)}
    (halong : AlongFrom M C p labels) (h : Purged mine Q R p q)
    (hhandler : ∀ r, Label.spawn r ∈ labels → (M.handler r).Only (Q r))
    (hmine : ∀ (p : Pool S σ ρ ε α) s' i c r op k, p.tasks[i]? = some ⟨r, some (.perform op k)⟩ →
      mine r = true → C p (.step i c) → Q r op → R p.shared s' →
      (M.exec p.shared op c).1 = (M.exec s' op c).1 ∧
        R (M.exec p.shared op c).2 (M.exec s' op c).2)
    (hother : ∀ s s' r op c, mine r = false → Q r op → R s s' → R (M.exec s op c).2 s')
    (henvironment : ∀ s s' t, R s s' → R (M.environment t s) (M.environment t s')) :
    Purged mine Q R (labels.foldl (Pool.next M) p)
      ((Pool.purge mine (p.tasks.map Task.request) labels).foldl (Pool.next M) q) := by
  induction labels generalizing p q with
  | nil => exact h
  | cons l labels ih =>
    have hnext := h.next (M := M) l (fun r hr => hhandler r (hr ▸ List.mem_cons_self))
      (fun i c r op k hl hi hr hop => hmine p q.shared i c r op k hi hr (hl ▸ halong.1) hop h.shared)
      (fun r op c hr hop => hother _ _ r op c hr hop h.shared)
      (fun t => henvironment _ _ t h.shared)
    rw [Pool.purge, List.foldl_append, List.foldl_cons, ← next_requests M p l]
    exact ih halong.2 hnext fun r hr => hhandler r (List.mem_cons_of_mem _ hr)

end Unwinding

end AgentExchange.Library.Pool
