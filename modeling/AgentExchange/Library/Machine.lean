import Mathlib.Tactic

/-!
# Runs of a state machine

A machine is a step function on states and labels; a run folds it over a list of
labels. `Along` says that every step of a run meets a condition on the state
before it, in a form that can be evaluated. `everywhere_iff_along` characterises
the runs that are good at every point by such a condition.
-/
namespace AgentExchange.Library.Machine

variable {σ ι : Type} (next : σ → ι → σ)

/-- The state after the labels. -/
def run (s : σ) (labels : List ι) : σ := labels.foldl next s

@[simp] theorem run_nil (s : σ) : run next s [] = s := rfl

@[simp] theorem run_cons (s : σ) (l : ι) (labels : List ι) :
    run next s (l :: labels) = run next (next s l) labels := rfl

theorem run_append (s : σ) (first second : List ι) :
    run next s (first ++ second) = run next (run next s first) second :=
  List.foldl_append

/-- Every step of the run meets the condition. -/
def Along (C : σ → ι → Prop) : σ → List ι → Prop
  | _, [] => True
  | s, l :: labels => C s l ∧ Along C (next s l) labels

instance Along.decidable (C : σ → ι → Prop) [∀ s l, Decidable (C s l)] :
    ∀ s labels, Decidable (Along next C s labels)
  | _, [] => inferInstanceAs (Decidable True)
  | s, l :: labels =>
    have := Along.decidable C (next s l) labels
    inferInstanceAs (Decidable (C s l ∧ Along next C (next s l) labels))

variable {next} {C H : σ → ι → Prop} {I P : σ → Prop} {s : σ} {labels : List ι}

theorem along_append {first second : List ι} :
    Along next C s (first ++ second) ↔
      Along next C s first ∧ Along next C (run next s first) second := by
  induction first generalizing s with
  | nil => simp [Along]
  | cons l first ih => simp only [List.cons_append, Along, ih, run_cons, and_assoc]

theorem along_true (s : σ) (labels : List ι) : Along next (fun _ _ => True) s labels := by
  induction labels generalizing s with
  | nil => trivial
  | cons l labels ih => exact ⟨trivial, ih _⟩

/-- What every step keeps holds at the end of the run. -/
theorem Along.invariant (h : Along next C s labels) (hinit : I s)
    (hkeep : ∀ s l, I s → C s l → I (next s l)) : I (run next s labels) := by
  induction labels generalizing s with
  | nil => exact hinit
  | cons l labels ih => exact ih h.2 (hkeep s l hinit h.1)

/-- The runs good at every point are those along a condition, when steps that meet it keep an
invariant of good states and the first step that breaks it leaves a bad one. -/
theorem everywhere_iff_along (hH : Along next H s labels) (hinit : I s)
    (hgood : ∀ s, I s → P s) (hkeep : ∀ s l, I s → H s l → C s l → I (next s l))
    (hbad : ∀ s l, I s → H s l → ¬C s l → ¬P (next s l)) :
    (∀ done, done <+: labels → P (run next s done)) ↔ Along next C s labels := by
  induction labels generalizing s with
  | nil =>
    refine ⟨fun _ => trivial, fun _ done hdone => ?_⟩
    rw [List.prefix_nil.mp hdone]
    exact hgood s hinit
  | cons l labels ih =>
    constructor
    · intro hall
      have hC : C s l := by
        by_contra hC
        exact hbad s l hinit hH.1 hC (hall [l] (by simp))
      refine ⟨hC, (ih hH.2 (hkeep s l hinit hH.1 hC)).mp fun done hdone => ?_⟩
      exact hall (l :: done) (List.cons_prefix_cons.mpr ⟨rfl, hdone⟩)
    · rintro ⟨hC, hrest⟩ done hdone
      cases done with
      | nil => exact hgood s hinit
      | cons d done =>
        obtain ⟨rfl, htail⟩ := List.cons_prefix_cons.mp hdone
        exact (ih hH.2 (hkeep s d hinit hH.1 hC)).mpr hrest done htail

end AgentExchange.Library.Machine
