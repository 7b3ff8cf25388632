import AgentExchange.Core.Types
import AgentExchange.Core.Json

/-!
# Scanner verdicts and policy decisions

The types a policy engine reads and answers with, and the table-driven engine of
the first tiers. The scanner pipeline itself is behind an interface: its verdict
is whatever the scanners found.
-/
namespace AgentExchange

inductive ScanResult where
  | clean
  | suspicious
  | malicious
  | error
  deriving DecidableEq, Repr

structure ScanVerdict where
  scanner : String
  result : ScanResult
  details : String
  durationMs : UInt64
  deriving DecidableEq

structure PipelineVerdict where
  overall : ScanResult
  verdicts : List ScanVerdict
  totalDurationMs : UInt64
  deriving DecidableEq

def PipelineVerdict.isBlocking (v : PipelineVerdict) : Bool := v.overall = .malicious

structure ScanInput where
  bytes : Bytes
  declaredMime : Option String := none
  filename : Option String := none
  deriving DecidableEq

inductive RecipientKind where
  | spizeNative
  | did
  | humanBridge
  | unknown
  deriving DecidableEq, Repr

structure PolicyRequest where
  sender : AgentId
  senderOrg : String
  recipient : String
  recipientKind : RecipientKind
  sizeBytes : UInt64
  declaredMime : Option String := none
  scannerVerdict : Option PipelineVerdict := none
  deriving DecidableEq

inductive PolicyDecision where
  | allow
  | deny (code reason : String)
  | pending (decisionId : String) (etaSeconds : UInt64)
  deriving DecidableEq

def ScanResult.asStr : ScanResult → String
  | .clean => "clean"
  | .suspicious => "suspicious"
  | .malicious => "malicious"
  | .error => "error"

def ScanVerdict.toJson (v : ScanVerdict) : Json :=
  .obj [("scanner", .str v.scanner), ("result", .str v.result.asStr), ("details", .str v.details),
    ("duration_ms", .num (.ofUInt64 v.durationMs))]

def PipelineVerdict.toJson (v : PipelineVerdict) : Json :=
  .obj [("overall", .str v.overall.asStr), ("verdicts", .arr (v.verdicts.map ScanVerdict.toJson)),
    ("total_duration_ms", .num (.ofUInt64 v.totalDurationMs))]

def PolicyDecision.toJson : PolicyDecision → Json
  | .allow => .obj [("type", .str "allow")]
  | .deny code reason => .obj [("type", .str "deny"), ("code", .str code), ("reason", .str reason)]
  | .pending decisionId eta =>
    .obj [("type", .str "pending"), ("decision_id", .str decisionId),
      ("eta_seconds", .num (.ofUInt64 eta))]

inductive TierName where
  | dev
  | enterprise
  | freeHuman
  deriving DecidableEq, Repr

def TierName.debug : TierName → String
  | .dev => "Dev"
  | .enterprise => "Enterprise"
  | .freeHuman => "FreeHuman"

structure TierPolicy where
  name : TierName
  maxBytes : UInt64
  mimeDeny : List String
  allowSuspicious : Bool
  failOpenOnScannerError : Bool
  allowHumanBridge : Bool

def defaultMimeDeny : List String :=
  ["application/x-msdownload", "application/x-executable", "application/x-mach-binary",
    "application/x-msdos-program"]

namespace TierPolicy

def forTier : TierName → TierPolicy
  | .freeHuman => ⟨.freeHuman, 25 * 1024 * 1024, defaultMimeDeny, false, false, true⟩
  | .dev => ⟨.dev, 100 * 1024 * 1024, defaultMimeDeny, true, true, true⟩
  | .enterprise => ⟨.enterprise, 5 * 1024 * 1024 * 1024, defaultMimeDeny, false, false, true⟩

def resultDebug : ScanResult → String
  | .clean => "Clean"
  | .suspicious => "Suspicious"
  | .malicious => "Malicious"
  | .error => "Error"

def summarizeVerdict (v : PipelineVerdict) : String :=
  "; ".intercalate ((v.verdicts.filter fun sv => sv.result ≠ .clean).map fun sv =>
    sv.scanner ++ "=" ++ resultDebug sv.result ++ ":" ++ sv.details)

def decideOnVerdict (p : TierPolicy) (v : PipelineVerdict) : Option PolicyDecision :=
  match v.overall with
  | .malicious => some (.deny "scanner_malicious" (summarizeVerdict v))
  | .error =>
    if p.failOpenOnScannerError then none
    else some (.deny "scanner_error" ("tier '" ++ p.name.debug ++
      "' fails closed on scanner error: " ++ summarizeVerdict v))
  | .suspicious =>
    if p.allowSuspicious then none else some (.deny "scanner_suspicious" (summarizeVerdict v))
  | .clean => none

/-- `TierPolicy::evaluate`: the first rule that denies decides. -/
def evaluate (p : TierPolicy) (req : PolicyRequest) : PolicyDecision :=
  if req.sizeBytes > p.maxBytes then
    .deny "size_exceeded" (toString req.sizeBytes ++ " bytes exceeds tier limit " ++
      toString p.maxBytes)
  else if !p.allowHumanBridge && req.recipientKind = .humanBridge then
    .deny "human_bridge_disallowed"
      "this tier does not permit sending to email/phone recipients"
  else
    match req.declaredMime.filter (p.mimeDeny.contains ·) with
    | some mime => .deny "mime_blocked" ("MIME " ++ mime ++ " is on the tier deny-list")
    | none => (req.scannerVerdict.bind p.decideOnVerdict).getD .allow

/-- The tier engine never defers its decision. -/
theorem evaluate_ne_pending (p : TierPolicy) (req : PolicyRequest) (decisionId : String)
    (eta : UInt64) : p.evaluate req ≠ .pending decisionId eta := by
  unfold evaluate
  split_ifs
  · simp
  · simp
  · split
    · simp
    · cases hv : req.scannerVerdict with
      | none => simp
      | some v =>
        rw [Option.bind_some]
        unfold decideOnVerdict
        split <;> (try split_ifs) <;> simp

end TierPolicy

end AgentExchange
