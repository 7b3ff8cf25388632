import AgentExchange.Policy.Engine
import AgentExchange.Core.Text

/-!
# The scanners

A pipeline runs its scanners at once over one input and keeps every verdict; the worst
one stands for all of them. How long a scanner took is part of its verdict, and is
handed to it here. The regular expressions are matched by a library.
-/
namespace AgentExchange

namespace ScanVerdict

def clean (scanner : String) (durationMs : UInt64) : ScanVerdict := ⟨scanner, .clean, "", durationMs⟩

def suspicious (scanner details : String) (durationMs : UInt64) : ScanVerdict :=
  ⟨scanner, .suspicious, details, durationMs⟩

def malicious (scanner details : String) (durationMs : UInt64) : ScanVerdict :=
  ⟨scanner, .malicious, details, durationMs⟩

def error (scanner details : String) (durationMs : UInt64) : ScanVerdict :=
  ⟨scanner, .error, details, durationMs⟩

@[simp] theorem clean_result (scanner : String) (durationMs : UInt64) :
    (clean scanner durationMs).result = .clean := rfl

@[simp] theorem suspicious_result (scanner details : String) (durationMs : UInt64) :
    (suspicious scanner details durationMs).result = .suspicious := rfl

@[simp] theorem malicious_result (scanner details : String) (durationMs : UInt64) :
    (malicious scanner details durationMs).result = .malicious := rfl

end ScanVerdict

/-- What the first verdicts and the next one come to. -/
def ScanResult.combine : ScanResult → ScanResult → ScanResult
  | _, .malicious | .malicious, _ => .malicious
  | _, .error | .error, _ => .error
  | _, .suspicious | .suspicious, _ => .suspicious
  | .clean, .clean => .clean

def PipelineVerdict.aggregate (verdicts : List ScanVerdict) : PipelineVerdict where
  overall := verdicts.foldl (fun overall v => overall.combine v.result) .clean
  verdicts := verdicts
  totalDurationMs := (verdicts.map ScanVerdict.durationMs).sum

/-- A scanner under its name: the duration is measured around the scan. -/
structure Scanner where
  name : String
  scan : ScanInput → UInt64 → ScanVerdict

abbrev ScanPipeline := List Scanner

/-- `ScanPipeline::scan`: `durations` are those of the scanners, `elapsed` that of the pipeline. -/
def ScanPipeline.scan (scanners : ScanPipeline) (input : ScanInput) (durations : ℕ → UInt64)
    (elapsed : UInt64) : PipelineVerdict :=
  { PipelineVerdict.aggregate (scanners.mapIdx fun i s => s.scan input (durations i)) with
    totalDurationMs := elapsed }

/-! ## Size -/

def sizeLimitScanner (maxBytes : UInt64) : Scanner where
  name := "size-limit"
  scan input durationMs :=
    let size := UInt64.ofNat input.bytes.length
    if size > maxBytes then
      .malicious "size-limit" ("size " ++ toString size ++ " exceeds limit " ++ toString maxBytes)
        durationMs
    else .clean "size-limit" durationMs

/-! ## Magic bytes -/

structure Sig where
  mime : String
  magic : List Bytes

/-- A byte string literal. -/
def byteString (s : String) : Bytes := s.toList.map fun c => UInt8.ofNat c.toNat

def sigs : List Sig := [
  ⟨"application/pdf", [byteString "%PDF-"]⟩,
  ⟨"image/png", [0x89 :: byteString "PNG\r\n" ++ [0x1a] ++ byteString "\n"]⟩,
  ⟨"image/jpeg", [[0xff, 0xd8, 0xff]]⟩,
  ⟨"image/gif", [byteString "GIF87a", byteString "GIF89a"]⟩,
  ⟨"image/webp", [byteString "RIFF"]⟩,
  ⟨"application/zip", [byteString "PK" ++ [3, 4], byteString "PK" ++ [5, 6],
    byteString "PK" ++ [7, 8]]⟩,
  ⟨"application/x-7z-compressed", [byteString "7z" ++ [0xbc, 0xaf, 0x27, 0x1c]]⟩,
  ⟨"application/gzip", [[0x1f, 0x8b]]⟩,
  ⟨"application/x-tar", []⟩,
  ⟨"application/octet-stream", []⟩,
  ⟨"text/plain", []⟩,
  ⟨"application/json", []⟩,
  ⟨"application/x-msdownload", [byteString "MZ"]⟩,
  ⟨"application/x-mach-binary", [[0xcf, 0xfa, 0xed, 0xfe], [0xfe, 0xed, 0xfa, 0xcf],
    [0xfe, 0xed, 0xfa, 0xce], [0xce, 0xfa, 0xed, 0xfe]]⟩,
  ⟨"application/x-executable", [0x7f :: byteString "ELF"]⟩]

/-- The first signature that matches; a RIFF container is only taken for WebP if it says so. -/
def detectMime (bytes : Bytes) : Option String :=
  sigs.findSome? fun sig => sig.magic.findSome? fun m =>
    if m.isPrefixOf bytes then
      if sig.mime = "image/webp" then
        if 12 ≤ bytes.length ∧ (bytes.drop 8).take 4 = byteString "WEBP" then some "image/webp"
        else none
      else some sig.mime
    else none

def declaredHasKnownSignature (declared : String) : Bool :=
  sigs.any fun s => s.mime = declared && !s.magic.isEmpty

/-- A declared `application/octet-stream` is never contradicted. -/
def mimesCompatible (declared detected : String) : Bool :=
  declared = detected || declared = "application/octet-stream"

def magicByteScanner : Scanner where
  name := "magic-bytes"
  scan input durationMs :=
    match input.declaredMime with
    | none => .clean "magic-bytes" durationMs
    | some declared =>
      match detectMime input.bytes with
      | some d =>
        if mimesCompatible declared d then .clean "magic-bytes" durationMs
        else .suspicious "magic-bytes"
          ("declared " ++ declared ++ " but bytes look like " ++ d) durationMs
      | none =>
        if declaredHasKnownSignature declared then
          .suspicious "magic-bytes" ("declared " ++ declared ++ " but no magic matched") durationMs
        else .clean "magic-bytes" durationMs

/-! ## The EICAR test file -/

def eicarSignature : Bytes :=
  byteString "X5O!P%@AP[4\\PZX54(P^)7CC)7\x7d$EICAR-STANDARD-ANTIVIRUS-TEST-FILE!$H+H*"

/-- `haystack.windows(needle.len()).any(|w| w == needle)`. -/
def containsSlice (haystack needle : Bytes) : Bool :=
  !needle.isEmpty && haystack.tails.any fun rest => needle.isPrefixOf rest

def eicarScanner : Scanner where
  name := "eicar"
  scan input durationMs :=
    if containsSlice input.bytes eicarSignature then
      .malicious "eicar" "EICAR test signature matched" durationMs
    else .clean "eicar" durationMs

/-! ## Prompt injection -/

def injectionPatterns : List String := [
  r"(?i)ignore\s+(?:(?:all|any|the|previous|prior|above|every)\s+)+(?:instructions?|prompts?|rules?)",
  r"(?i)disregard\s+(?:(?:all|any|the|previous|prior|above|every)\s+)+(?:instructions?|prompts?|rules?|context)",
  r"(?i)forget\s+(?:everything|all)\s+(?:you|above|before)",
  r"(?i)you\s+are\s+now\s+(a|an)\s+",
  r"(?i)new\s+(system|role)\s*:",
  r"(?i)<\s*system\s*>",
  r"(?i)\bDAN\s+mode\b",
  r"(?i)\bdeveloper\s+mode\b",
  r"(?i)reveal\s+(the\s+)?system\s+prompt",
  r"(?i)print\s+the\s+(hidden|secret|system)\s+(prompt|instructions)",
  r"(?i)<!--\s*begin\s+prompt",
  r"(?i)###\s*system"]

/-- `regexSet` answers with the indices of the patterns that occur. -/
def regexInjectionScanner (regexSet : List String → Bytes → List ℕ) : Scanner where
  name := "regex-prompt-injection"
  scan input durationMs :=
    let found := regexSet injectionPatterns input.bytes
    if found.isEmpty then .clean "regex-prompt-injection" durationMs
    else
      let hitNames := (found.take 3).map fun i => "pattern_" ++ toString i
      .suspicious "regex-prompt-injection" (toString found.length ++ " pattern(s) matched: " ++
        ", ".intercalate hitNames) durationMs

/-- The pipeline that both servers are started with. -/
def defaultPipeline (maxTransferBytes : UInt64) (regexSet : List String → Bytes → List ℕ) :
    ScanPipeline :=
  [sizeLimitScanner maxTransferBytes, magicByteScanner, eicarScanner,
    regexInjectionScanner regexSet]

/-! ## The worst verdict -/

def ScanResult.severity : ScanResult → ℕ
  | .clean => 0
  | .suspicious => 1
  | .error => 2
  | .malicious => 3

theorem ScanResult.severity_injective : Function.Injective ScanResult.severity := by
  intro a b h
  cases a <;> cases b <;> first | rfl | cases h

/-- Clean, suspicious, error, malicious. -/
instance : LinearOrder ScanResult := LinearOrder.lift' ScanResult.severity ScanResult.severity_injective

instance : OrderBot ScanResult where
  bot := .clean
  bot_le a := Nat.zero_le a.severity

namespace PipelineVerdict

variable {verdicts verdicts' : List ScanVerdict}

theorem combine_eq_max (a b : ScanResult) : a.combine b = max a b := by
  cases a <;> cases b <;> decide

theorem foldl_combine_le_iff (a r : ScanResult) :
    verdicts.foldl (fun overall v => overall.combine v.result) a ≤ r ↔
      a ≤ r ∧ ∀ v ∈ verdicts, v.result ≤ r := by
  induction verdicts generalizing a with
  | nil => simp
  | cons v verdicts ih =>
    rw [List.foldl_cons, ih, combine_eq_max, max_le_iff, List.forall_mem_cons, and_assoc]

theorem overall_le_iff {r : ScanResult} :
    (aggregate verdicts).overall ≤ r ↔ ∀ v ∈ verdicts, v.result ≤ r :=
  (foldl_combine_le_iff .clean r).trans (and_iff_right bot_le)

theorem le_overall {v : ScanVerdict} (hv : v ∈ verdicts) :
    v.result ≤ (aggregate verdicts).overall :=
  overall_le_iff.mp le_rfl v hv

theorem overall_mono (h : verdicts ⊆ verdicts') :
    (aggregate verdicts).overall ≤ (aggregate verdicts').overall :=
  overall_le_iff.mpr fun _ hv => le_overall (h hv)

/-- The overall result is one of the verdicts, or clean. -/
theorem overall_mem (verdicts : List ScanVerdict) :
    (aggregate verdicts).overall ∈ insert .clean {r | ∃ v ∈ verdicts, v.result = r} := by
  induction verdicts using List.reverseRecOn with
  | nil => exact Or.inl rfl
  | append_singleton verdicts v ih =>
    have hlast : (aggregate (verdicts ++ [v])).overall = max (aggregate verdicts).overall v.result :=
      (List.foldl_concat ..).trans (combine_eq_max ..)
    rw [hlast]
    rcases max_choice (aggregate verdicts).overall v.result with h | h
    · rw [h]
      rcases ih with hclean | ⟨u, hu, hr⟩
      · exact Or.inl hclean
      · exact Or.inr ⟨u, List.mem_append_left _ hu, hr⟩
    · rw [h]
      exact Or.inr ⟨v, by simp, rfl⟩

theorem overall_isGreatest (verdicts : List ScanVerdict) :
    IsGreatest (insert .clean {r | ∃ v ∈ verdicts, v.result = r}) (aggregate verdicts).overall := by
  refine ⟨overall_mem verdicts, ?_⟩
  rintro r (rfl | ⟨v, hv, rfl⟩)
  · exact bot_le
  · exact le_overall hv

end PipelineVerdict

/-! ## What a pipeline reports -/

/-- No scanner of the pipeline ends in an error. -/
def ScanPipeline.NeverFails (scanners : ScanPipeline) : Prop :=
  ∀ s ∈ scanners, ∀ input durationMs, (s.scan input durationMs).result ≠ .error

theorem defaultPipeline_neverFails (maxTransferBytes : UInt64)
    (regexSet : List String → Bytes → List ℕ) :
    (defaultPipeline maxTransferBytes regexSet).NeverFails := by
  intro s hs input durationMs
  simp only [defaultPipeline, List.mem_cons, List.not_mem_nil, or_false] at hs
  rcases hs with rfl | rfl | rfl | rfl
  · simp only [sizeLimitScanner]
    split_ifs <;> simp
  · simp only [magicByteScanner]
    cases input.declaredMime with
    | none => simp
    | some declared =>
      cases detectMime input.bytes <;> dsimp only <;> split_ifs <;> simp
  · simp only [eicarScanner]
    split_ifs <;> simp
  · simp only [regexInjectionScanner]
    split_ifs <;> simp

variable {scanners : ScanPipeline} {input : ScanInput} {durations : ℕ → UInt64} {elapsed : UInt64}

/-- The overall result is at least as bad as that of any scanner. -/
theorem ScanPipeline.le_overall_scan {s : Scanner} (hs : s ∈ scanners) {r : ScanResult}
    (hr : ∀ durationMs, (s.scan input durationMs).result = r) :
    r ≤ (scanners.scan input durations elapsed).overall := by
  obtain ⟨i, hi, rfl⟩ := List.getElem_of_mem hs
  have hmem : scanners[i].scan input (durations i) ∈
      scanners.mapIdx fun i s => s.scan input (durations i) :=
    List.mem_mapIdx.mpr ⟨i, hi, rfl⟩
  rw [← hr (durations i)]
  exact PipelineVerdict.le_overall hmem

theorem ScanPipeline.NeverFails.overall_ne (h : scanners.NeverFails) :
    (scanners.scan input durations elapsed).overall ≠ .error := by
  intro herror
  rcases PipelineVerdict.overall_mem
    (scanners.mapIdx fun i s => s.scan input (durations i)) with hclean | ⟨v, hv, hr⟩
  · cases herror.symm.trans hclean
  · obtain ⟨i, hi, rfl⟩ := List.mem_mapIdx.mp hv
    exact h _ (List.getElem_mem hi) _ _ (hr.trans herror)

/-- A declared type that the bytes contradict is suspicious. -/
theorem magicByteScanner_mismatch {declared detected : String}
    (hdeclared : input.declaredMime = some declared)
    (hdetected : detectMime input.bytes = some detected)
    (hmismatch : mimesCompatible declared detected = false) (durationMs : UInt64) :
    (magicByteScanner.scan input durationMs).result = .suspicious := by
  simp only [magicByteScanner, hdeclared, hdetected, hmismatch]
  rfl

end AgentExchange
