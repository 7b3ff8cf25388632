import AgentExchange.Policy.Monotonicity
import AgentExchange.ControlPlane.Admission

/-!
# Content on the deny-list

The tier's deny-list is compared with the declared type alone; the scanner compares the
declared type with the bytes. Together they keep a listed type out on a tier that rejects
suspicions, whatever other type is declared: the one type that the scanner never
contradicts is `application/octet-stream`.
-/
namespace AgentExchange

namespace TierPolicy

variable {p : TierPolicy} {q : PolicyRequest}

theorem isDeny_of_listed {mime : String} (hmime : q.declaredMime = some mime)
    (hlisted : mime ∈ p.mimeDeny) : (p.evaluate q).IsDeny := by
  unfold evaluate
  split_ifs
  · exact ⟨_, _, rfl⟩
  · exact ⟨_, _, rfl⟩
  · rw [hmime, Option.filter_some_pos (by simpa using hlisted)]
    exact ⟨_, _, rfl⟩

theorem isDeny_of_rejects {v : PipelineVerdict} (hv : q.scannerVerdict = some v)
    (hrejects : p.rejects v.overall = true) : (p.evaluate q).IsDeny := by
  have h := (isDeny_evaluate_iff p q v).mpr (Or.inr hrejects)
  rwa [← hv] at h

end TierPolicy

namespace ControlPlane

open Library

/-- What `create_transfer` decides on an uploaded blob after its scan. -/
def postScanDecision (p : TierPolicy) (scanners : ScanPipeline) (req : CreateTransferRequest)
    (sender : AgentId) (senderOrg : String) (blob : Bytes) (durations : ℕ → UInt64)
    (elapsed : UInt64) : PolicyDecision :=
  p.evaluate (postScanRequest req sender senderOrg (.ofNat blob.length)
    (scanners.scan ⟨blob, optStr req.declaredMime, optStr req.filename⟩ durations elapsed))

/-- A listed type is denied by its name where it is declared, else by the scanner. -/
theorem isDeny_postScanDecision {p : TierPolicy} {scanners : ScanPipeline}
    (hmagic : magicByteScanner ∈ scanners) (hfails : scanners.NeverFails)
    {req : CreateTransferRequest} (sender : AgentId) (senderOrg : String) {blob : Bytes}
    (durations : ℕ → UInt64) (elapsed : UInt64) {detected : String}
    (hdetected : detectMime blob = some detected) (hlisted : detected ∈ p.mimeDeny)
    (hstrict : p.allowSuspicious = false) (hdeclared : req.declaredMime ≠ "")
    (hspecific : req.declaredMime ≠ "application/octet-stream") :
    (postScanDecision p scanners req sender senderOrg blob durations elapsed).IsDeny := by
  have hopt : optStr req.declaredMime = some req.declaredMime := by
    simp [optStr, hdeclared]
  by_cases hsame : req.declaredMime = detected
  · exact TierPolicy.isDeny_of_listed hopt (hsame ▸ hlisted)
  · have hmismatch : mimesCompatible req.declaredMime detected = false := by
      simp [mimesCompatible, hsame, hspecific]
    have hrejects : p.rejects .suspicious = true := by simp [TierPolicy.rejects, hstrict]
    let input : ScanInput := ⟨blob, optStr req.declaredMime, optStr req.filename⟩
    have hsuspicious : .suspicious ≤ (scanners.scan input durations elapsed).overall :=
      ScanPipeline.le_overall_scan hmagic (magicByteScanner_mismatch hopt hdetected hmismatch)
    refine TierPolicy.isDeny_of_rejects rfl ((TierPolicy.rejects_of_le hsuspicious hrejects).mpr ?_)
    exact fun h => hfails.overall_ne h.2

/-- Bytes of a listed type are denied under every declared type but `application/octet-stream`, on
every tier that rejects suspicions. -/
theorem listed_content_denied (p : TierPolicy) (maxTransferBytes : UInt64)
    (regexSet : List String → Bytes → List ℕ) (req : CreateTransferRequest) (sender : AgentId)
    (senderOrg : String) (blob : Bytes) (durations : ℕ → UInt64) (elapsed : UInt64)
    (detected : String) (hdetected : detectMime blob = some detected)
    (hlisted : detected ∈ p.mimeDeny) (hstrict : p.allowSuspicious = false)
    (hdeclared : req.declaredMime ≠ "")
    (hspecific : req.declaredMime ≠ "application/octet-stream") :
    (postScanDecision p (defaultPipeline maxTransferBytes regexSet) req sender senderOrg blob
      durations elapsed).IsDeny :=
  isDeny_postScanDecision (by simp [defaultPipeline]) (defaultPipeline_neverFails _ _) sender
    senderOrg durations elapsed hdetected hlisted hstrict hdeclared hspecific

/-- The start of an ELF file. -/
def Sample.elf : Bytes := [0x7f, 0x45, 0x4c, 0x46, 2, 1, 1, 0]

def Sample.declaring (mime : String) : CreateTransferRequest :=
  { Sample.blobRequest with declaredMime := mime, blobHex := "7f454c4602010100" }

/-- No pattern occurs in the file. -/
def Sample.regexSet (_ : List String) (_ : Bytes) : List ℕ := []

theorem listed_content_denied_pdf :
    (postScanDecision (.forTier .enterprise) (defaultPipeline 1048576 Sample.regexSet)
      (Sample.declaring "application/pdf") ⟨"spize:acme/alice:aabbcc"⟩ "acme" Sample.elf
      (fun _ => 0) 0).IsDeny :=
  listed_content_denied _ _ _ _ _ _ _ _ _ "application/x-executable" (by decide) (by decide) rfl
    (by decide) (by decide)

/-- An executable that is declared as plain bytes gets through the strictest tier. -/
theorem octet_stream_allowed :
    ¬∀ (p : TierPolicy) (maxTransferBytes : UInt64) (regexSet : List String → Bytes → List ℕ)
      (req : CreateTransferRequest) (sender : AgentId) (senderOrg : String) (blob : Bytes)
      (durations : ℕ → UInt64) (elapsed : UInt64) (detected : String),
      detectMime blob = some detected → detected ∈ p.mimeDeny → p.allowSuspicious = false →
      (postScanDecision p (defaultPipeline maxTransferBytes regexSet) req sender senderOrg blob
        durations elapsed).IsDeny := by
  intro h
  obtain ⟨code, reason, hdeny⟩ := h (.forTier .enterprise) 1048576 Sample.regexSet
    (Sample.declaring "application/octet-stream") ⟨"spize:acme/alice:aabbcc"⟩ "acme" Sample.elf
    (fun _ => 0) 0 "application/x-executable" (by decide) (by decide) rfl
  have hallow : postScanDecision (.forTier .enterprise) (defaultPipeline 1048576 Sample.regexSet)
      (Sample.declaring "application/octet-stream") ⟨"spize:acme/alice:aabbcc"⟩ "acme" Sample.elf
      (fun _ => 0) 0 = .allow := by decide +kernel
  cases hallow.symm.trans hdeny

/-- Every scan of the run was answered by the pipeline. -/
def ScansWith (scanners : ScanPipeline) (w : World) : Prop :=
  ∀ e ∈ w.trace, ∀ input verdict, e.event = ⟨.scan input, verdict⟩ →
    ∃ durations elapsed, verdict = scanners.scan input durations elapsed

/-- In a run of such a deployment no upload of listed content becomes ready for pickup. -/
theorem listed_content_not_admitted {env : Env} {labels : List Label} {p : TierPolicy}
    {scanners : ScanPipeline} (hpolicy : env.policy = p.evaluate) (hstrict : p.allowSuspicious = false)
    (hmagic : magicByteScanner ∈ scanners) (hfails : scanners.NeverFails)
    (hscans : ScansWith scanners (run env labels)) {e : Entry effects State Request}
    (he : e ∈ (run env labels).trace) {req : CreateTransferRequest} {row : TransferRow}
    (hrow : insertion e = some (req, row)) (hready : row.state = .readyForPickup)
    (hblob : req.IsBlob) {blob : Bytes} (hbytes : hexDecode req.blobHex = .ok blob)
    {detected : String} (hdetected : detectMime blob = some detected)
    (hlisted : detected ∈ p.mimeDeny) :
    req.declaredMime = "" ∨ req.declaredMime = "application/octet-stream" := by
  by_contra hother
  obtain ⟨hdeclared, hspecific⟩ := not_or.mp hother
  obtain ⟨past, rest, htrace⟩ := List.append_of_mem he
  have hpast : past ⊆ (run env labels).trace := by simp [htrace]
  obtain ⟨hreq, hcreates⟩ := insertion_eq_some hrow
  obtain ⟨req', t, hreq', -, hrow', hadmitted⟩ := created_admitted htrace hcreates
  obtain rfl : req = req' := by simpa using hreq.symm.trans hreq'
  obtain ⟨org, blob', verdict, pre, post, hchecked⟩ :=
    hadmitted.blob hblob (by simpa [hrow'] using hready)
  obtain rfl : blob = blob' := by simpa using hbytes.symm.trans hchecked.decoded
  obtain ⟨es, hes, -, hscan⟩ := Pool.mem_eventsOf.mp hchecked.scanned
  obtain ⟨durations, elapsed, rfl⟩ := hscans es (hpast hes) _ _ hscan
  obtain ⟨⟨task, request, before, event⟩, hep, -, hpost⟩ := Pool.mem_eventsOf.mp hchecked.postScan
  obtain ⟨c, hanswer⟩ := (Pool.run_conforms (semantics env) {} labels).answered _ (hpast hep)
  dsimp only at hpost hanswer
  subst hpost
  have hdecision : post = postScanDecision p scanners req ⟨req.senderAgentId⟩ org blob durations
      elapsed := by
    rw [postScanDecision, ← hpolicy]
    exact hanswer
  obtain ⟨code, reason, hdeny⟩ := isDeny_postScanDecision hmagic hfails ⟨req.senderAgentId⟩ org
    durations elapsed hdetected hlisted hstrict hdeclared hspecific
  exact hchecked.postScan_passed code reason (hdecision.trans hdeny)

end ControlPlane

end AgentExchange
