import AgentExchange.Policy.Scanner

/-!
# Further findings and rejections

The overall result grows with the verdicts, but the tier policy does not read it as a
scale: failing open on scanner errors and allowing suspicious content are two flags, and
an error hides a suspicion. A tier that fails open on errors and rejects suspicions takes
a rejection back once a scanner fails as well.
-/
namespace AgentExchange

open PipelineVerdict

def PolicyDecision.IsDeny (d : PolicyDecision) : Prop := ∃ code reason, d = .deny code reason

namespace TierPolicy

variable {p : TierPolicy} {req : PolicyRequest} {v : PipelineVerdict}

/-- The tier takes the verdict for a reason to deny. -/
def rejects (p : TierPolicy) : ScanResult → Bool
  | .malicious => true
  | .error => !p.failOpenOnScannerError
  | .suspicious => !p.allowSuspicious
  | .clean => false

theorem decideOnVerdict_eq_none : p.decideOnVerdict v = none ↔ p.rejects v.overall = false := by
  unfold decideOnVerdict
  cases v.overall <;> simp [rejects]

theorem isDeny_of_decideOnVerdict {d : PolicyDecision} (h : p.decideOnVerdict v = some d) :
    d.IsDeny := by
  unfold decideOnVerdict at h
  split at h <;> (try split_ifs at h) <;> cases h <;> exact ⟨_, _, rfl⟩

/-- What denies without a verdict denies with one; the verdict decides on what is left. -/
theorem isDeny_evaluate_iff (p : TierPolicy) (req : PolicyRequest) (v : PipelineVerdict) :
    (p.evaluate { req with scannerVerdict := some v }).IsDeny ↔
      p.evaluate { req with scannerVerdict := none } ≠ .allow ∨ p.rejects v.overall = true := by
  unfold evaluate
  split_ifs with hsize hbridge
  · simp [PolicyDecision.IsDeny]
  · simp [PolicyDecision.IsDeny]
  · cases hmime : req.declaredMime.filter (p.mimeDeny.contains ·) with
    | some mime => simp [PolicyDecision.IsDeny]
    | none =>
      simp only [Option.bind_some, Option.bind_none, Option.getD_none, ne_eq, not_true_eq_false,
        false_or]
      cases hv : p.decideOnVerdict v with
      | none =>
        rw [decideOnVerdict_eq_none.mp hv]
        simp [PolicyDecision.IsDeny]
      | some d =>
        have hrejects : p.rejects v.overall = true := by
          rw [← Bool.not_eq_false, ← decideOnVerdict_eq_none, hv]
          simp
        exact iff_of_true (isDeny_of_decideOnVerdict hv) hrejects

/-- The verdicts alone are what the request is denied for. -/
def DeniesFor (p : TierPolicy) (req : PolicyRequest) (verdicts : List ScanVerdict) : Prop :=
  p.evaluate { req with scannerVerdict := none } = .allow ∧
    (p.evaluate { req with scannerVerdict := some (aggregate verdicts) }).IsDeny

/-- A worse overall result is rejected too, unless it is an error that the tier lets pass. -/
theorem rejects_of_le {r r' : ScanResult} (hle : r ≤ r') (hr : p.rejects r = true) :
    p.rejects r' = true ↔ ¬(p.failOpenOnScannerError = true ∧ r' = .error) := by
  cases r' with
  | clean =>
    have hclean : r = .clean := le_bot_iff.mp hle
    rw [hclean] at hr
    cases hr
  | suspicious =>
    have hsuspicious : r = .suspicious := by
      cases r with
      | clean => cases hr
      | suspicious => rfl
      | error => exact absurd hle (by decide)
      | malicious => exact absurd hle (by decide)
    rw [← hsuspicious, hr, hsuspicious]
    simp
  | error => simp [rejects]
  | malicious => simp [rejects]

/-- The overall result is the worst of the verdicts, and further verdicts keep a rejection unless
the tier lets scanner errors pass and the overall result becomes one. -/
theorem rejection_kept :
    (∀ verdicts, IsGreatest (insert .clean {r | ∃ v ∈ verdicts, v.result = r})
      (aggregate verdicts).overall) ∧
    (∀ verdicts verdicts' : List ScanVerdict, (∀ v, v ∈ verdicts ↔ v ∈ verdicts') →
      (aggregate verdicts).overall = (aggregate verdicts').overall) ∧
    ∀ (p : TierPolicy) (req : PolicyRequest) (V W : List ScanVerdict), V ⊆ W → p.DeniesFor req V →
      ((p.evaluate { req with scannerVerdict := some (aggregate W) }).IsDeny ↔
        ¬(p.failOpenOnScannerError = true ∧ (aggregate W).overall = .error)) := by
  refine ⟨overall_isGreatest, fun verdicts verdicts' h => ?_, fun p req V W hsub hdenies => ?_⟩
  · exact le_antisymm (overall_mono fun v hv => (h v).mp hv) (overall_mono fun v hv => (h v).mpr hv)
  · obtain ⟨hallow, hdeny⟩ := hdenies
    rw [isDeny_evaluate_iff] at hdeny ⊢
    have hrejects : p.rejects (aggregate V).overall = true := hdeny.resolve_left (not_not_intro hallow)
    rw [or_iff_right (not_not_intro hallow)]
    exact rejects_of_le (overall_mono hsub) hrejects

/-- A tier that rejects suspicious content but lets scanner errors pass. -/
def strictButOpen : TierPolicy := ⟨.enterprise, 1024, defaultMimeDeny, false, true, true⟩

def sampleRequest : PolicyRequest where
  sender := ⟨"spize:acme/alice:aabbcc"⟩
  senderOrg := "acme"
  recipient := "spize:acme/bob:ddeeff"
  recipientKind := .spizeNative
  sizeBytes := 8

def suspicion : ScanVerdict := .suspicious "regex-prompt-injection" "x" 1

def crash : ScanVerdict := .error "eicar" "crashed" 1

theorem suspicion_denied : strictButOpen.DeniesFor sampleRequest [suspicion] := by
  refine ⟨by decide, ?_⟩
  rw [isDeny_evaluate_iff]
  exact Or.inr (by decide)

/-- A clean verdict beside the suspicion changes nothing. -/
theorem rejection_kept_clean :
    (strictButOpen.evaluate { sampleRequest with
      scannerVerdict := some (aggregate [.clean "size-limit" 1, suspicion]) }).IsDeny :=
  (rejection_kept.2.2 strictButOpen sampleRequest [suspicion] [.clean "size-limit" 1, suspicion]
    (by simp) suspicion_denied).mpr (by decide)

/-- The same suspicion is let through once another scanner has crashed. -/
theorem crash_lifts_rejection :
    ¬∀ (p : TierPolicy) (req : PolicyRequest) (V W : List ScanVerdict), V ⊆ W →
      p.DeniesFor req V →
      (p.evaluate { req with scannerVerdict := some (aggregate W) }).IsDeny := by
  intro h
  have hdeny := h strictButOpen sampleRequest [suspicion] [suspicion, crash] (by simp)
    suspicion_denied
  rw [isDeny_evaluate_iff] at hdeny
  exact absurd hdeny (by decide)

end TierPolicy

end AgentExchange
