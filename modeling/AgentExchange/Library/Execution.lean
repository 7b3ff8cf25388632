import AgentExchange.Library.Program

/-!
# Executions of a program alone

A program run against a state with nothing acting in between: the events it
performed, its outcome and the state it leaves. The operations are interpreted by a
function of the state and of what the outside world answers at each step.

`Program.Ends` is the program logic of such executions: it knows the state, and says what
the end meets whatever the outside answers within a condition.
-/
namespace AgentExchange.Library

structure Execution (S : Signature) (σ ε α : Type) where
  events : List (Event S)
  outcome : Except ε α
  final : σ

namespace Program

variable {S : Signature} {σ χ ε α β : Type} (exec : σ → (op : S.Op) → χ → S.Answer op × σ)

/-- The choices are used in order, one for each operation. -/
def execute : (ℕ → χ) → σ → Program S ε α → Execution S σ ε α
  | _, s, pure a => ⟨[], .ok a, s⟩
  | _, s, fail e => ⟨[], .error e, s⟩
  | choices, s, perform op k =>
    let answer := exec s op (choices 0)
    let rest := (k answer.1).execute (fun n => choices (n + 1)) answer.2
    ⟨⟨op, answer.1⟩ :: rest.events, rest.outcome, rest.final⟩

variable {exec} {choices : ℕ → χ} {s : σ}

/-- What a program meets under every history it meets in an execution. -/
theorem Spec.execute {pre : List (Event S) → S.Op → Prop}
    {post : List (Event S) → Except ε α → Prop} {p : Program S ε α} {past : List (Event S)}
    (h : p.Spec pre post past) :
    post (past ++ (p.execute exec choices s).events) (p.execute exec choices s).outcome := by
  induction p generalizing past choices s with
  | pure a =>
    rw [Program.execute, List.append_nil]
    exact h
  | fail e =>
    rw [Program.execute, List.append_nil]
    exact h
  | perform op k ih =>
    rw [Program.execute, List.append_cons]
    exact ih _ (h.2 (exec s op (choices 0)).1)

/-- An execution is a complete history. -/
theorem runs_execute {p : Program S ε α} :
    ∃ rest, Runs p (p.execute exec choices s).events rest ∧
      rest.outcome = some (p.execute exec choices s).outcome := by
  induction p generalizing choices s with
  | pure a => exact ⟨_, .start, rfl⟩
  | fail e => exact ⟨_, .start, rfl⟩
  | perform op k ih =>
    obtain ⟨rest, hruns, hrest⟩ := @ih (exec s op (choices 0)).1 (fun n => choices (n + 1))
      (exec s op (choices 0)).2
    exact ⟨rest, Runs.call_bind (f := k) hruns, hrest⟩

/-- Every answer of an execution is one of the interpretation. -/
theorem answer_of_mem_execute {p : Program S ε α} {e : Event S}
    (he : e ∈ (p.execute exec choices s).events) : ∃ s' c, e.answer = (exec s' e.op c).1 := by
  induction p generalizing choices s with
  | pure a => cases he
  | fail e => cases he
  | perform op k ih =>
    rcases List.mem_cons.mp he with rfl | he
    · exact ⟨s, choices 0, rfl⟩
    · exact ih _ he

variable (exec)

/-- Whatever choices in `C` answer the operations, the history, the outcome and the state at the
end meet `post`. -/
def Ends (C : χ → Prop) (post : List (Event S) → Except ε α → σ → Prop) :
    Program S ε α → List (Event S) → σ → Prop
  | pure a, past, s => post past (.ok a) s
  | fail e, past, s => post past (.error e) s
  | perform op k, past, s =>
    ∀ c, C c → (k (exec s op c).1).Ends C post (past ++ [⟨op, (exec s op c).1⟩]) (exec s op c).2

section Ends

variable {exec} {C : χ → Prop} {post post' : List (Event S) → Except ε α → σ → Prop}
  {past : List (Event S)}

theorem ends_call_bind {op : S.Op} {f : S.Answer op → Program S ε α} :
    (call op >>= f).Ends exec C post past s ↔
      ∀ c, C c → (f (exec s op c).1).Ends exec C post (past ++ [⟨op, (exec s op c).1⟩])
        (exec s op c).2 := Iff.rfl

theorem ends_bind {p : Program S ε β} {f : β → Program S ε α} :
    (p >>= f).Ends exec C post past s ↔
      p.Ends exec C (fun past' r s' => match r with
        | .ok a => (f a).Ends exec C post past' s'
        | .error e => post past' (.error e) s') past s := by
  induction p generalizing past s with
  | pure a => rfl
  | fail e => rfl
  | perform op k ih => exact forall_congr' fun c => forall_congr' fun _ => ih _

theorem Ends.mono {p : Program S ε α} (h : p.Ends exec C post past s)
    (hpost : ∀ past r s, post past r s → post' past r s) : p.Ends exec C post' past s := by
  induction p generalizing past s with
  | pure a => exact hpost _ _ _ h
  | fail e => exact hpost _ _ _ h
  | perform op k ih => exact fun c hc => ih _ (h c hc)

theorem ends_ensure_bind {c : Prop} [Decidable c] (hc : c) {e : ε} {f : Unit → Program S ε α}
    (h : (f ()).Ends exec C post past s) : (ensure c e >>= f).Ends exec C post past s := by
  rw [ensure_bind_eq hc]
  exact h

theorem ends_lift_bind {x : Except ε β} {b : β} (hx : x = .ok b) {f : β → Program S ε α}
    (h : (f b).Ends exec C post past s) : (lift x >>= f).Ends exec C post past s := by
  rw [hx]
  exact h

/-- The execution under choices in `C` ends as the logic says. -/
theorem Ends.execute {p : Program S ε α} (h : p.Ends exec C post past s) (hC : ∀ n, C (choices n)) :
    post (past ++ (p.execute exec choices s).events) (p.execute exec choices s).outcome
      (p.execute exec choices s).final := by
  induction p generalizing past choices s with
  | pure a =>
    rw [Program.execute, List.append_nil]
    exact h
  | fail e =>
    rw [Program.execute, List.append_nil]
    exact h
  | perform op k ih =>
    rw [Program.execute, List.append_cons]
    exact ih _ (h _ (hC 0)) fun n => hC (n + 1)

/-- A part that neither changes the state nor fails, in front of a program. -/
theorem Only.ends_bind {Q : S.Op → Prop} {p : Program S ε β} {f : β → Program S ε α}
    (hp : p.Only Q) (hfails : p.Fails fun _ => False)
    (hQ : ∀ op c, Q op → (exec s op c).2 = s)
    (hok : ∀ es, (∀ e ∈ es, Q e.op) → ∀ b, (f b).Ends exec C post (past ++ es) s) :
    (p >>= f).Ends exec C post past s := by
  induction p generalizing past with
  | pure b =>
    change (f b).Ends exec C post past s
    simpa using hok [] (by simp) b
  | fail e => exact hfails.elim
  | perform op k ih =>
    intro c hc
    rw [hQ op c hp.1]
    refine ih _ (hp.2 _) (hfails _) ?_
    intro es hes
    rw [List.append_assoc]
    exact hok (⟨op, (exec s op c).1⟩ :: es) (List.forall_mem_cons.mpr ⟨hp.1, hes⟩)

end Ends

end Program

end AgentExchange.Library
