import Mathlib.Tactic

/-!
# Programs over atomic operations

A program either returns, fails, or performs one atomic operation and continues
with its answer. Nothing is fixed about the meaning of the operations, so facts
proved here hold for every interleaving: other programs act between any two
operations, and the answers are whatever the shared state then gives.

`Program.Spec` is the program logic. It speaks about the history of operations
and answers of one program: each operation meets a precondition over the history
so far, and the outcome meets a postcondition over the whole history.
-/
namespace AgentExchange.Library

/-- An element of a list with one more element at its end is that element or an old one. -/
theorem snoc_eq_append_cons {α : Type*} {xs before after : List α} {x y : α}
    (h : xs ++ [x] = before ++ y :: after) :
    (before = xs ∧ y = x ∧ after = []) ∨ ∃ rest, after = rest ++ [x] ∧ xs = before ++ y :: rest := by
  rcases List.eq_nil_or_concat after with rfl | ⟨rest, last, rfl⟩
  · obtain ⟨hxs, hx⟩ := List.append_inj' h rfl
    exact Or.inl ⟨hxs.symm, (List.singleton_inj.mp hx).symm, rfl⟩
  · rw [List.concat_eq_append, ← List.cons_append, ← List.append_assoc] at h
    obtain ⟨hxs, hx⟩ := List.append_inj' h rfl
    exact Or.inr ⟨rest, by rw [List.concat_eq_append, List.singleton_inj.mp hx], hxs⟩

/-- `K` holds of every element over what stands before it. -/
def Successively {α : Type*} (K : List α → α → Prop) (xs : List α) : Prop :=
  ∀ before x after, xs = before ++ x :: after → K before x

theorem successively_snoc {α : Type*} {K : List α → α → Prop} {xs : List α} {x : α} :
    Successively K (xs ++ [x]) ↔ Successively K xs ∧ K xs x := by
  constructor
  · intro h
    refine ⟨?_, h xs x [] rfl⟩
    intro before y after he
    exact h before y (after ++ [x]) (by simp [he])
  · intro h before y after he
    rcases snoc_eq_append_cons he with ⟨rfl, rfl, -⟩ | ⟨rest, -, hxs⟩
    · exact h.2
    · exact h.1 before y rest hxs

theorem exists_mem_snoc {α : Type*} {xs : List α} {x : α} {P : α → Prop} :
    (∃ e ∈ xs ++ [x], P e) ↔ (∃ e ∈ xs, P e) ∨ P x := by
  simp [or_and_right, exists_or]

theorem pairwise_snoc {α : Type*} {R : α → α → Prop} {xs : List α} {x : α} :
    (xs ++ [x]).Pairwise R ↔ xs.Pairwise R ∧ ∀ e ∈ xs, R e x := by
  simp [List.pairwise_append]

/-- Of two different elements of a list one stands before the other. -/
theorem pairwise_mem {α : Type*} {R : α → α → Prop} {xs : List α} (h : xs.Pairwise R) {a b : α}
    (ha : a ∈ xs) (hb : b ∈ xs) (hne : a ≠ b) : R a b ∨ R b a := by
  have : Std.Symm fun a b => R a b ∨ R b a := ⟨fun _ _ => Or.symm⟩
  exact (h.imp (S := fun a b => R a b ∨ R b a) Or.inl).forall ha hb hne

/-- Atomic operations, each with the type of its answer. -/
structure Signature where
  Op : Type
  Answer : Op → Type

/-- An operation together with the answer it got. -/
structure Event (S : Signature) where
  op : S.Op
  answer : S.Answer op

inductive Program (S : Signature) (ε α : Type) where
  | pure : α → Program S ε α
  | fail : ε → Program S ε α
  | perform : (op : S.Op) → (S.Answer op → Program S ε α) → Program S ε α

namespace Program

variable {S : Signature} {ε α β : Type}

def bind : Program S ε α → (α → Program S ε β) → Program S ε β
  | pure a, f => f a
  | fail e, _ => fail e
  | perform op k, f => perform op fun r => (k r).bind f

instance : Monad (Program S ε) where
  pure := Program.pure
  bind := Program.bind

instance : MonadExcept ε (Program S ε) where
  throw := Program.fail
  tryCatch p _ := p

/-- Perform one operation and return its answer. -/
def call (op : S.Op) : Program S ε (S.Answer op) := perform op pure

/-- Run a fallible computation that performs no operation. -/
def lift : Except ε α → Program S ε α
  | .ok a => pure a
  | .error e => fail e

/-- Go on only if the condition holds. -/
def ensure (c : Prop) [Decidable c] (e : ε) : Program S ε Unit :=
  if c then pure () else fail e

/-- Unwrap an optional value, or fail. -/
def okOr (x : Option α) (e : ε) : Program S ε α :=
  match x with
  | some a => pure a
  | none => fail e

/-- The same program with its errors renamed. -/
def mapError {ε' : Type} (f : ε → ε') : Program S ε α → Program S ε' α
  | pure a => pure a
  | fail e => fail (f e)
  | perform op k => perform op fun r => (k r).mapError f

/-- What a program returned, once it has. -/
def outcome : Program S ε α → Option (Except ε α)
  | pure a => some (.ok a)
  | fail e => some (.error e)
  | perform _ _ => none

@[simp] theorem pure_bind_eq (a : α) (f : α → Program S ε β) :
    (Pure.pure a >>= f : Program S ε β) = f a := rfl

@[simp] theorem fail_bind_eq (e : ε) (f : α → Program S ε β) :
    (Program.fail e >>= f : Program S ε β) = Program.fail e := rfl

@[simp] theorem throw_eq (e : ε) : (throw e : Program S ε α) = Program.fail e := rfl

@[simp] theorem lift_ok (a : α) : (lift (.ok a) : Program S ε α) = Pure.pure a := rfl

@[simp] theorem lift_error (e : ε) : (lift (.error e) : Program S ε α) = Program.fail e := rfl

theorem ensure_bind_eq {c : Prop} [Decidable c] (hc : c) (e : ε) (f : Unit → Program S ε β) :
    (ensure c e >>= f) = f () := by
  rw [ensure, if_pos hc]
  rfl

theorem ensure_bind_fail {c : Prop} [Decidable c] (hc : ¬c) (e : ε) (f : Unit → Program S ε β) :
    (ensure c e >>= f) = Program.fail e := by
  rw [ensure, if_neg hc]
  rfl

theorem mapError_ensure_bind {ε' : Type} (g : ε → ε') (c : Prop) [Decidable c] (e : ε)
    (f : Unit → Program S ε α) :
    (ensure c e >>= f).mapError g = ensure c (g e) >>= fun u => (f u).mapError g := by
  by_cases hc : c
  · rw [ensure_bind_eq hc, ensure_bind_eq hc]
  · rw [ensure_bind_fail hc, ensure_bind_fail hc]
    rfl

theorem mapError_mapError {ε' ε'' : Type} (f : ε → ε') (g : ε' → ε'') (p : Program S ε α) :
    (p.mapError f).mapError g = p.mapError (g ∘ f) := by
  induction p with
  | pure a => rfl
  | fail e => rfl
  | perform op k ih => exact congrArg (perform op) (funext ih)

/-- Every operation meets `pre` over the history so far; the outcome meets `post`. -/
def Spec (pre : List (Event S) → S.Op → Prop) (post : List (Event S) → Except ε α → Prop) :
    Program S ε α → List (Event S) → Prop
  | pure a, past => post past (.ok a)
  | fail e, past => post past (.error e)
  | perform op k, past => pre past op ∧ ∀ r, (k r).Spec pre post (past ++ [⟨op, r⟩])

section Rules

variable {pre pre' : List (Event S) → S.Op → Prop}
  {post post' : List (Event S) → Except ε α → Prop} {past : List (Event S)}

@[simp] theorem spec_pure {a : α} :
    (Pure.pure a : Program S ε α).Spec pre post past ↔ post past (.ok a) := Iff.rfl

@[simp] theorem spec_fail {e : ε} :
    (Program.fail e : Program S ε α).Spec pre post past ↔ post past (.error e) := Iff.rfl

@[simp] theorem spec_perform {op : S.Op} {k : S.Answer op → Program S ε α} :
    (perform op k).Spec pre post past ↔
      pre past op ∧ ∀ r, (k r).Spec pre post (past ++ [⟨op, r⟩]) := Iff.rfl

@[simp] theorem spec_call {op : S.Op} {post : List (Event S) → Except ε (S.Answer op) → Prop} :
    (call op : Program S ε (S.Answer op)).Spec pre post past ↔
      pre past op ∧ ∀ r, post (past ++ [⟨op, r⟩]) (.ok r) := Iff.rfl

theorem spec_lift {x : Except ε α} :
    (lift x : Program S ε α).Spec pre post past ↔ post past x := by
  cases x <;> rfl

/-- Sequencing: the postcondition of the first part is what the rest needs. -/
theorem spec_bind {p : Program S ε α} {f : α → Program S ε β}
    {post : List (Event S) → Except ε β → Prop} :
    (p >>= f).Spec pre post past ↔
      p.Spec pre (fun past' r => match r with
        | .ok a => (f a).Spec pre post past'
        | .error e => post past' (.error e)) past := by
  induction p generalizing past with
  | pure a => rfl
  | fail e => rfl
  | perform op k ih =>
    change (perform op fun r => (k r).bind f).Spec pre post past ↔ _
    simp only [spec_perform]
    exact and_congr_right fun _ => forall_congr' fun r => ih r

/-! One rule for each way a handler takes its next step. -/

theorem spec_call_bind {op : S.Op} {f : S.Answer op → Program S ε α} :
    (call op >>= f).Spec pre post past ↔
      pre past op ∧ ∀ r, (f r).Spec pre post (past ++ [⟨op, r⟩]) := Iff.rfl

theorem spec_lift_bind {x : Except ε β} {f : β → Program S ε α} :
    (lift x >>= f).Spec pre post past ↔
      (∀ b, x = .ok b → (f b).Spec pre post past) ∧ ∀ e, x = .error e → post past (.error e) := by
  rw [spec_bind, spec_lift]
  cases x <;> simp

theorem spec_ensure_bind {c : Prop} [Decidable c] {e : ε} {f : Unit → Program S ε α} :
    (ensure c e >>= f).Spec pre post past ↔
      (c → (f ()).Spec pre post past) ∧ (¬c → post past (.error e)) := by
  rw [spec_bind]
  by_cases hc : c
  · simp [ensure, hc, Spec]
  · simp [ensure, hc]

theorem spec_ensure {c : Prop} [Decidable c] {e : ε}
    {post : List (Event S) → Except ε Unit → Prop} :
    (ensure c e : Program S ε Unit).Spec pre post past ↔
      (c → post past (.ok ())) ∧ (¬c → post past (.error e)) := by
  by_cases hc : c
  · simp [ensure, hc, Spec]
  · simp [ensure, hc]

theorem spec_okOr_bind {x : Option β} {e : ε} {f : β → Program S ε α} :
    (okOr x e >>= f).Spec pre post past ↔
      (∀ b, x = some b → (f b).Spec pre post past) ∧ (x = none → post past (.error e)) := by
  rw [spec_bind]
  cases x <;> simp [okOr, Spec]

theorem spec_mapError {ε' : Type} {p : Program S ε' α} {f : ε' → ε} :
    (p.mapError f).Spec pre post past ↔ p.Spec pre (fun past' r => post past' (r.mapError f)) past := by
  induction p generalizing past with
  | pure a => rfl
  | fail e => rfl
  | perform op k ih => exact and_congr_right fun _ => forall_congr' fun r => ih r

theorem Spec.mono {p : Program S ε α} (h : p.Spec pre post past)
    (hpre : ∀ past op, pre past op → pre' past op)
    (hpost : ∀ past r, post past r → post' past r) : p.Spec pre' post' past := by
  induction p generalizing past with
  | pure a => exact hpost _ _ h
  | fail e => exact hpost _ _ h
  | perform op k ih => exact ⟨hpre _ _ h.1, fun r => ih r (h.2 r)⟩

end Rules

/-- Every operation the program can perform is in `Q`, whatever the answers. -/
def Only (Q : S.Op → Prop) : Program S ε α → Prop
  | pure _ => True
  | fail _ => True
  | perform op k => Q op ∧ ∀ r, (k r).Only Q

section Only

variable {Q : S.Op → Prop} {pre : List (Event S) → S.Op → Prop} {past : List (Event S)}

@[simp] theorem only_pure {a : α} : (Pure.pure a : Program S ε α).Only Q := trivial

@[simp] theorem only_fail {e : ε} : (Program.fail e : Program S ε α).Only Q := trivial

theorem only_call {op : S.Op} (h : Q op) : (call op : Program S ε (S.Answer op)).Only Q :=
  ⟨h, fun _ => trivial⟩

theorem only_lift (x : Except ε α) : (lift x : Program S ε α).Only Q := by
  cases x <;> trivial

theorem only_ensure (c : Prop) [Decidable c] (e : ε) : (ensure c e : Program S ε Unit).Only Q := by
  unfold ensure
  split_ifs <;> trivial

theorem only_okOr (x : Option α) (e : ε) : (okOr x e : Program S ε α).Only Q := by
  cases x <;> trivial

theorem only_lift_bind {x : Except ε α} {f : α → Program S ε β}
    (h : ∀ a, x = .ok a → (f a).Only Q) : (lift x >>= f).Only Q := by
  cases x with
  | ok a => exact h a rfl
  | error e => trivial

theorem Only.bind {p : Program S ε α} {f : α → Program S ε β} (hp : p.Only Q)
    (hf : ∀ a, (f a).Only Q) : (p >>= f).Only Q := by
  induction p with
  | pure a => exact hf a
  | fail e => trivial
  | perform op k ih => exact ⟨hp.1, fun r => ih r (hp.2 r)⟩

theorem Only.mono {Q' : S.Op → Prop} {p : Program S ε α} (hp : p.Only Q) (h : ∀ op, Q op → Q' op) :
    p.Only Q' := by
  induction p with
  | pure a => trivial
  | fail e => trivial
  | perform op k ih => exact ⟨h op hp.1, fun r => ih r (hp.2 r)⟩

theorem Only.spec {p : Program S ε α} {post : List (Event S) → Except ε α → Prop}
    (hp : p.Only Q) (hpre : ∀ past op, Q op → pre past op) (hpost : ∀ past r, post past r) :
    p.Spec pre post past := by
  induction p generalizing past with
  | pure a => exact hpost _ _
  | fail e => exact hpost _ _
  | perform op k ih => exact ⟨hpre _ _ hp.1, fun r => ih r (hp.2 r)⟩

/-- After a part that performs operations in `Q` only, the history has grown by such events. -/
theorem Only.spec_bind {p : Program S ε α} {f : α → Program S ε β}
    {post : List (Event S) → Except ε β → Prop} (hp : p.Only Q)
    (hpre : ∀ past op, Q op → pre past op)
    (herr : ∀ es, (∀ e ∈ es, Q e.op) → ∀ e, post (past ++ es) (.error e))
    (hok : ∀ es, (∀ e ∈ es, Q e.op) → ∀ a, (f a).Spec pre post (past ++ es)) :
    (p >>= f).Spec pre post past := by
  induction p generalizing past with
  | pure a =>
    change (f a).Spec pre post past
    simpa using hok [] (by simp) a
  | fail e =>
    change post past (.error e)
    simpa using herr [] (by simp) e
  | perform op k ih =>
    refine ⟨hpre _ _ hp.1, fun r => ih r (hp.2 r) ?_ ?_⟩
    · intro es hes
      rw [List.append_assoc]
      exact herr (⟨op, r⟩ :: es) (List.forall_mem_cons.mpr ⟨hp.1, hes⟩)
    · intro es hes
      rw [List.append_assoc]
      exact hok (⟨op, r⟩ :: es) (List.forall_mem_cons.mpr ⟨hp.1, hes⟩)

end Only

/-- Every error the program can end with is in `P`, whatever the answers. -/
def Fails (P : ε → Prop) : Program S ε α → Prop
  | pure _ => True
  | fail e => P e
  | perform _ k => ∀ r, (k r).Fails P

section Fails

variable {P : ε → Prop}

theorem fails_pure {a : α} : (Pure.pure a : Program S ε α).Fails P := trivial

theorem fails_call (op : S.Op) : (call op : Program S ε (S.Answer op)).Fails P := fun _ => trivial

theorem fails_lift {x : Except ε α} (h : ∀ e, x = .error e → P e) :
    (lift x : Program S ε α).Fails P := by
  cases x with
  | ok a => trivial
  | error e => exact h e rfl

theorem fails_lift_mapError {ε' : Type} (x : Except ε' α) {g : ε' → ε} (h : ∀ e, P (g e)) :
    (lift (x.mapError g) : Program S ε α).Fails P := by
  cases x with
  | ok a => trivial
  | error e => exact h e

theorem fails_ensure (c : Prop) [Decidable c] {e : ε} (h : P e) :
    (ensure c e : Program S ε Unit).Fails P := by
  unfold ensure
  split_ifs
  · trivial
  · exact h

theorem fails_okOr (x : Option α) {e : ε} (h : P e) : (okOr x e : Program S ε α).Fails P := by
  cases x with
  | some a => trivial
  | none => exact h

theorem Fails.bind {p : Program S ε α} {f : α → Program S ε β} (hp : p.Fails P)
    (hf : ∀ a, (f a).Fails P) : (p >>= f).Fails P := by
  induction p with
  | pure a => exact hf a
  | fail e => exact hp
  | perform op k ih => exact fun r => ih r (hp r)

/-- A part whose errors are harmless in front of a program. -/
theorem Fails.spec_bind {p : Program S ε α} {f : α → Program S ε β}
    {post : List (Event S) → Except ε β → Prop} {past : List (Event S)} (hp : p.Fails P)
    (herr : ∀ past e, P e → post past (.error e))
    (hok : ∀ past a, (f a).Spec (fun _ _ => True) post past) :
    (p >>= f).Spec (fun _ _ => True) post past := by
  induction p generalizing past with
  | pure a => exact hok past a
  | fail e => exact herr past e hp
  | perform op k ih => exact ⟨trivial, fun r => ih r (hp r)⟩

theorem Fails.spec {p : Program S ε α} {post : List (Event S) → Except ε α → Prop}
    {past : List (Event S)} (hp : p.Fails P) (herr : ∀ past e, P e → post past (.error e))
    (hok : ∀ past a, post past (.ok a)) : p.Spec (fun _ _ => True) post past := by
  induction p generalizing past with
  | pure a => exact hok past a
  | fail e => exact herr past e hp
  | perform op k ih => exact ⟨trivial, fun r => ih r (hp r)⟩

end Fails

/-- `Runs p es q`: after the events `es`, what is left of `p` is `q`. -/
inductive Runs (p : Program S ε α) : List (Event S) → Program S ε α → Prop
  | start : Runs p [] p
  | next {es op k} (r : S.Answer op) : Runs p es (perform op k) → Runs p (es ++ [⟨op, r⟩]) (k r)

theorem Runs.call_bind {op : S.Op} {f : S.Answer op → Program S ε α} {q : Program S ε α}
    {es : List (Event S)} {r : S.Answer op} (h : Runs (f r) es q) :
    Runs (call op >>= f) (⟨op, r⟩ :: es) q := by
  induction h with
  | start => exact (Runs.start.next r : Runs (perform op f) ([] ++ [⟨op, r⟩]) _)
  | next r' _ ih => exact .next r' ih

theorem Runs.eq_of_nil {p q : Program S ε α} {es : List (Event S)} (h : Runs p es q)
    (hes : es = []) : q = p := by
  cases h with
  | start => rfl
  | next r h => simp at hes

/-- What is left of a program after one event. -/
theorem runs_singleton {p q : Program S ε α} {op : S.Op} {r : S.Answer op} :
    Runs p [⟨op, r⟩] q ↔ ∃ k, p = perform op k ∧ q = k r := by
  constructor
  · intro h
    generalize hes : [(⟨op, r⟩ : Event S)] = es at h
    cases h with
    | start => cases hes
    | next r' h =>
      obtain ⟨hnil, hlast⟩ := List.append_inj' (show [] ++ [_] = _ from hes) rfl
      cases hlast
      exact ⟨_, (h.eq_of_nil hnil.symm).symm, rfl⟩
  · rintro ⟨k, rfl, rfl⟩
    exact .next r .start

theorem Runs.eq_of_pure {a : α} {q : Program S ε α} {es : List (Event S)}
    (h : Runs (Pure.pure a) es q) : q = Pure.pure a := by
  induction h with
  | start => rfl
  | next r _ ih => cases ih

theorem Runs.of_mapError {ε' : Type} {p : Program S ε' α} {f : ε' → ε} {q : Program S ε α}
    {es : List (Event S)} (h : Runs (p.mapError f) es q) :
    ∃ p', Runs p es p' ∧ q = p'.mapError f := by
  induction h with
  | start => exact ⟨p, .start, rfl⟩
  | @next es op k r _ ih =>
    obtain ⟨p', hp', hk⟩ := ih
    cases p' with
    | pure a => cases hk
    | fail e => cases hk
    | perform op' k' =>
      cases hk
      exact ⟨k' r, .next r hp', rfl⟩

/-- A sequence is in its first part, or the first part has returned. -/
theorem Runs.of_bind {p : Program S ε α} {f : α → Program S ε β} {q : Program S ε β}
    {es : List (Event S)} (h : Runs (p >>= f) es q) :
    (∃ p', Runs p es p' ∧ q = p' >>= f) ∨
      ∃ first rest a, es = first ++ rest ∧ Runs p first (pure a) ∧ Runs (f a) rest q := by
  induction h with
  | start => exact Or.inl ⟨p, .start, rfl⟩
  | @next es op k r _ ih =>
    rcases ih with ⟨p', hp', hk⟩ | ⟨first, rest, a, rfl, hp, hf⟩
    · cases p' with
      | pure a => exact Or.inr ⟨es, [⟨op, r⟩], a, rfl, hp', runs_singleton.mpr ⟨k, hk.symm, rfl⟩⟩
      | fail e => cases hk
      | perform op' k' =>
        cases hk
        exact Or.inl ⟨k' r, .next r hp', rfl⟩
    · exact Or.inr ⟨first, rest ++ [⟨op, r⟩], a, by simp, hp, .next r hf⟩

/-- What a program still has to do keeps its specification. -/
theorem Runs.spec {pre : List (Event S) → S.Op → Prop}
    {post : List (Event S) → Except ε α → Prop} {p q : Program S ε α} {es : List (Event S)}
    (h : Runs p es q) (hs : p.Spec pre post []) : q.Spec pre post es := by
  induction h with
  | start => exact hs
  | next r _ ih => exact ih.2 r

theorem Runs.outcome_spec {pre : List (Event S) → S.Op → Prop}
    {post : List (Event S) → Except ε α → Prop} {p q : Program S ε α} {es : List (Event S)}
    {r : Except ε α} (h : Runs p es q) (hs : p.Spec pre post []) (hr : q.outcome = some r) :
    post es r := by
  have hq := h.spec hs
  cases q with
  | pure a => cases hr; exact hq
  | fail e => cases hr; exact hq
  | perform op k => cases hr

/-- The precondition held of every operation that was performed. -/
theorem Runs.pre_of_mem {pre : List (Event S) → S.Op → Prop}
    {post : List (Event S) → Except ε α → Prop} {p q : Program S ε α} {es : List (Event S)}
    (h : Runs p es q) (hs : p.Spec pre post []) :
    ∀ before e after, es = before ++ e :: after → pre before e.op := by
  induction h with
  | start => intro before e after he; simp at he
  | @next es op k r hrun ih =>
    intro before e after he
    rcases snoc_eq_append_cons he with ⟨rfl, rfl, rfl⟩ | ⟨rest, rfl, hes⟩
    · exact (hrun.spec hs).1
    · exact ih before e rest hes

end Program

end AgentExchange.Library
