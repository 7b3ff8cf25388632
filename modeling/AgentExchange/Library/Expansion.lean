import AgentExchange.Library.Program

/-!
# Programs over finer operations

An operation of one program may itself be a program over finer operations. `expand`
substitutes such a program for each operation, and `spec_expand` carries a
specification across: it asks of every operation's program what the operation promised,
over any two histories that are related.

Two kinds of operations are put side by side by `Signature.sum`; a program over the
second kind runs inside a larger one, where its own history is a part of the whole.
-/
namespace AgentExchange.Library

/-- Operations of two kinds. -/
def Signature.sum (S T : Signature) : Signature where
  Op := S.Op ⊕ T.Op
  Answer := Sum.elim S.Answer T.Answer

variable {S T U : Signature} {ε ζ α β : Type}

def Event.inl (e : Event S) : Event (S.sum T) := ⟨.inl e.op, e.answer⟩

def Event.inr (e : Event T) : Event (S.sum T) := ⟨.inr e.op, e.answer⟩

theorem Event.inr_injective : Function.Injective (Event.inr : Event T → Event (S.sum T)) := by
  rintro ⟨op, answer⟩ ⟨op', answer'⟩ h
  cases h
  rfl

namespace Program

/-- Every operation carried out by a program. -/
def expand (f : (op : S.Op) → Program T ε (S.Answer op)) : Program S ε α → Program T ε α
  | pure a => pure a
  | fail e => fail e
  | perform op k => f op >>= fun r => (k r).expand f

/-- The same operations among those of the first kind. -/
def performLeft (op : S.Op) : Program (S.sum T) ε (S.Answer op) :=
  perform (S := S.sum T) (.inl op) pure

/-- A program over the second kind, its failure handed over as a result. -/
def attempt : Program T ε α → Program (S.sum T) ζ (Except ε α)
  | pure a => pure (.ok a)
  | fail e => pure (.error e)
  | perform op k => perform (S := S.sum T) (.inr op) fun r => (k r).attempt

section Rules

variable {f : (op : S.Op) → Program T ε (S.Answer op)}
  {pre : List (Event S) → S.Op → Prop} {post : List (Event S) → Except ε α → Prop}
  {pre' : List (Event T) → T.Op → Prop} {post' : List (Event T) → Except ε α → Prop}
  {R : List (Event S) → List (Event T) → Prop}

/-- The simulation rule: from related histories, the program of an operation that is allowed leads
to related histories again. -/
theorem spec_expand {p : Program S ε α} {own : List (Event S)} {past : List (Event T)}
    (hp : p.Spec pre post own) (hR : R own past)
    (hop : ∀ own past op, R own past → pre own op →
      (f op).Spec pre' (fun past' r => ∀ a, r = .ok a → R (own ++ [⟨op, a⟩]) past') past)
    (hpost : ∀ own past r, R own past → post own r → post' past r)
    (hfail : ∀ past e, post' past (.error e)) :
    (p.expand f).Spec pre' post' past := by
  induction p generalizing own past with
  | pure a => exact hpost own past (.ok a) hR hp
  | fail e => exact hpost own past (.error e) hR hp
  | perform op k ih =>
    unfold expand
    apply spec_bind.mpr
    apply (hop own past op hR hp.1).mono (fun _ _ h => h)
    intro past' r hr
    cases r with
    | ok a => exact ih a (hp.2 a) (hr a rfl)
    | error e => exact hfail past' e

/-- A program keeps its specification over the part of a history that is its own. -/
theorem Spec.shift {p : Program S ε α} {own : List (Event S)} (h : p.Spec pre post own)
    (past : List (Event S)) :
    p.Spec (fun past' op => ∃ own, past' = past ++ own ∧ pre own op)
      (fun past' r => ∃ own, past' = past ++ own ∧ post own r) (past ++ own) := by
  induction p generalizing own with
  | pure a => exact ⟨own, rfl, h⟩
  | fail e => exact ⟨own, rfl, h⟩
  | perform op k ih =>
    constructor
    · exact ⟨own, rfl, h.1⟩
    · intro r
      rw [List.append_assoc]
      exact ih r (h.2 r)

/-- The same for a program inside one that performs other operations besides. -/
theorem Spec.attempt {p : Program T ε α} {pre : List (Event T) → T.Op → Prop}
    {post : List (Event T) → Except ε α → Prop} {own : List (Event T)} (h : p.Spec pre post own)
    (past : List (Event (S.sum T))) :
    (p.attempt : Program (S.sum T) ζ (Except ε α)).Spec
      (fun past' op => ∃ own top, past' = past ++ own.map Event.inr ∧ op = Sum.inr top ∧ pre own top)
      (fun past' r => ∃ own result, past' = past ++ own.map Event.inr ∧ r = .ok result ∧
        post own result) (past ++ own.map Event.inr) := by
  induction p generalizing own with
  | pure a => exact ⟨own, _, rfl, rfl, h⟩
  | fail e => exact ⟨own, _, rfl, rfl, h⟩
  | perform op k ih =>
    constructor
    · exact ⟨own, op, rfl, rfl, h.1⟩
    · intro r
      have hnext := ih r (h.2 r)
      rw [List.map_append, ← List.append_assoc] at hnext
      exact hnext

end Rules

end Program

end AgentExchange.Library
