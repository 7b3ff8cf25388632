import AgentExchange.Core.Text
import AgentExchange.Library.Trim

/-!
# Captive portals

`captive.rs`: three probes, a verdict for each, and the state they agree on. Whether a body is
the one Microsoft serves is decided after trimming.
-/
namespace AgentExchange.Net

open Library

inductive NetworkState where
  | direct
  | captivePortal
  | limited
  | unknown
  deriving DecidableEq

def NetworkState.asStdoutValue : NetworkState → String
  | .direct => "direct"
  | .captivePortal => "captive_portal"
  | .limited => "limited"
  | .unknown => "unknown"

inductive ProbeVerdict where
  | ok
  | captive
  | unexpected
  | failed
  deriving DecidableEq

namespace Captive

def http511NetworkAuthRequired : ℕ := 511

def appleUrl : String := "http://captive.apple.com/hotspot-detect.html"
def googleUrl : String := "http://www.google.com/generate_204"
def msUrl : String := "http://www.msftncsi.com/ncsi.txt"

def appleExpectedBodyFragment : String := "Success"
def msExpectedBody : String := "Microsoft NCSI"

/-- `StatusCode::is_redirection`. -/
def isRedirection (status : ℕ) : Bool := 300 ≤ status && status ≤ 399

/-- `StatusCode::is_success`. -/
def isSuccess (status : ℕ) : Bool := 200 ≤ status && status ≤ 299

/-- `str::contains`. -/
def contains (fragment body : String) : Bool := decide (fragment.toList <:+: body.toList)

/-- A response; `none` for a text that cannot be read. -/
structure Response where
  status : ℕ
  text : Option String

def consensus (results : List ProbeVerdict) : NetworkState :=
  if .captive ∈ results then .captivePortal
  else if results.all (· = .ok) then .direct
  else if results.all (· = .failed) then .unknown
  else .limited

def classifyAppleResponse (resp : Response) : ProbeVerdict :=
  if resp.status = http511NetworkAuthRequired then .captive
  else if isRedirection resp.status then .captive
  else if ¬isSuccess resp.status then .unexpected
  else
    match resp.text with
    | some body => if contains appleExpectedBodyFragment body then .ok else .captive
    | none => .failed

def probeApple (client : String → Option Response) (url : String) : ProbeVerdict :=
  match client url with
  | some resp => classifyAppleResponse resp
  | none => .failed

def probeGoogle (client : String → Option Response) (url : String) : ProbeVerdict :=
  match client url with
  | some resp =>
    if resp.status = http511NetworkAuthRequired || isRedirection resp.status then .captive
    else if resp.status = 204 then .ok
    else .unexpected
  | none => .failed

def probeMs (client : String → Option Response) (url : String) : ProbeVerdict :=
  match client url with
  | some resp =>
    if resp.status = http511NetworkAuthRequired then .captive
    else if isRedirection resp.status then .captive
    else if ¬isSuccess resp.status then .unexpected
    else
      match resp.text with
      | some body => if trim body = msExpectedBody then .ok else .captive
      | none => .failed
  | none => .failed

def detectWithUrls (client : String → Option Response) (appleUrl googleUrl msUrl : String) :
    NetworkState :=
  consensus [probeApple client appleUrl, probeGoogle client googleUrl, probeMs client msUrl]

def detectNetworkState (client : String → Option Response) : NetworkState :=
  detectWithUrls client appleUrl googleUrl msUrl

/-! ## What the states mean -/

/-- What a probe meets: nothing, or a response with a text. -/
inductive Outcome where
  | failure
  | response (status : ℕ) (body : String)

inductive Probe where
  | apple
  | google
  | ms
  deriving DecidableEq

/-- The body that is served where nothing is in between. -/
def BodyExpected : Probe → String → Prop
  | .apple, body => appleExpectedBodyFragment.toList <:+: body.toList
  | .google, _ => True
  | .ms, body => trim body = msExpectedBody

/-- The login page of a portal, a redirection to it, or the status made for it. -/
def ShowsPortal (probe : Probe) : Outcome → Prop
  | .failure => False
  | .response status body => status = 511 ∨ (300 ≤ status ∧ status ≤ 399) ∨
      (probe ≠ .google ∧ 200 ≤ status ∧ status ≤ 299 ∧ ¬BodyExpected probe body)

def AsExpected (probe : Probe) : Outcome → Prop
  | .failure => False
  | .response status body =>
    if probe = .google then status = 204
    else 200 ≤ status ∧ status ≤ 299 ∧ BodyExpected probe body

open Classical in
/-- The state the outcomes of the three probes stand for. -/
noncomputable def stateOf (apple google ms : Outcome) : NetworkState :=
  if ShowsPortal .apple apple ∨ ShowsPortal .google google ∨ ShowsPortal .ms ms then .captivePortal
  else if AsExpected .apple apple ∧ AsExpected .google google ∧ AsExpected .ms ms then .direct
  else if apple = .failure ∧ google = .failure ∧ ms = .failure then .unknown
  else .limited

/-- What the client of the crate sees. -/
def Outcome.answer : Outcome → Option Response
  | .failure => none
  | .response status body => some ⟨status, some body⟩

/-- A verdict says what the outcome is. -/
structure Judges (probe : Probe) (outcome : Outcome) (verdict : ProbeVerdict) : Prop where
  captive : verdict = .captive ↔ ShowsPortal probe outcome
  ok : verdict = .ok ↔ AsExpected probe outcome
  failed : verdict = .failed ↔ outcome = .failure

section Judgement

variable {apple google ms : Outcome} {a g m : ProbeVerdict}

theorem Judges.unique {probe : Probe} {outcome : Outcome} {v w : ProbeVerdict}
    (hv : Judges probe outcome v) (hw : Judges probe outcome w) : v = w := by
  have hcaptive := hv.captive.trans hw.captive.symm
  have hok := hv.ok.trans hw.ok.symm
  have hfailed := hv.failed.trans hw.failed.symm
  cases v <;> cases w <;> simp_all

/-- The consensus of right verdicts is the state. -/
theorem consensus_eq_stateOf (ha : Judges .apple apple a) (hg : Judges .google google g)
    (hm : Judges .ms ms m) : consensus [a, g, m] = stateOf apple google ms := by
  have hcaptive : .captive ∈ [a, g, m] ↔
      ShowsPortal .apple apple ∨ ShowsPortal .google google ∨ ShowsPortal .ms ms := by
    rw [← ha.captive, ← hg.captive, ← hm.captive]
    simp [eq_comm]
  have hok : [a, g, m].all (· = .ok) = true ↔
      AsExpected .apple apple ∧ AsExpected .google google ∧ AsExpected .ms ms := by
    rw [← ha.ok, ← hg.ok, ← hm.ok]
    simp
  have hfailed : [a, g, m].all (· = .failed) = true ↔
      apple = .failure ∧ google = .failure ∧ ms = .failure := by
    rw [← ha.failed, ← hg.failed, ← hm.failed]
    simp
  classical
  rw [consensus, stateOf]
  exact if_congr hcaptive rfl (if_congr hok rfl (if_congr hfailed rfl rfl))

theorem consensus_eq_captivePortal :
    consensus [a, g, m] = .captivePortal ↔ a = .captive ∨ g = .captive ∨ m = .captive := by
  rw [consensus]
  split_ifs with hcaptive hok hfailed
  · simpa [eq_comm] using hcaptive
  all_goals simpa [eq_comm] using hcaptive

end Judgement

/-! ## The verdicts -/

/-- The verdict on a response whose body matters. -/
def bodyVerdict (bodyOk : Bool) (status : ℕ) : ProbeVerdict :=
  if status = 511 then .captive
  else if isRedirection status then .captive
  else if ¬isSuccess status then .unexpected
  else if bodyOk then .ok
  else .captive

theorem judges_failure (probe : Probe) : Judges probe .failure .failed := by
  constructor <;> simp [ShowsPortal, AsExpected]

theorem judges_body {probe : Probe} {status : ℕ} {body : String} {bodyOk : Bool}
    (hprobe : probe ≠ .google) (hbody : bodyOk = true ↔ BodyExpected probe body) :
    Judges probe (.response status body) (bodyVerdict bodyOk status) := by
  have hredirect : isRedirection status = true ↔ 300 ≤ status ∧ status ≤ 399 := by
    simp [isRedirection]
  have hsuccess : isSuccess status = true ↔ 200 ≤ status ∧ status ≤ 299 := by
    simp [isSuccess]
  have hshows : ShowsPortal probe (.response status body) ↔ status = 511 ∨
      (300 ≤ status ∧ status ≤ 399) ∨
        (200 ≤ status ∧ status ≤ 299 ∧ ¬BodyExpected probe body) := by
    simp [ShowsPortal, hprobe]
  have hexpected : AsExpected probe (.response status body) ↔
      200 ≤ status ∧ status ≤ 299 ∧ BodyExpected probe body := by
    simp [AsExpected, hprobe]
  simp only [bodyVerdict, hredirect, hsuccess, hbody]
  split_ifs <;> constructor <;> grind

theorem judges_google_status (status : ℕ) (body : String) :
    Judges .google (.response status body)
      (if status = 511 || isRedirection status then .captive
        else if status = 204 then .ok else .unexpected) := by
  have hportal : (status = 511 || isRedirection status) = true ↔
      status = 511 ∨ (300 ≤ status ∧ status ≤ 399) := by
    simp [isRedirection]
  have hshows : ShowsPortal .google (.response status body) ↔
      status = 511 ∨ (300 ≤ status ∧ status ≤ 399) := by
    simp [ShowsPortal]
  have hexpected : AsExpected .google (.response status body) ↔ status = 204 := by
    simp [AsExpected]
  simp only [hportal]
  split_ifs <;> constructor <;> grind

theorem bodyVerdict_of_success {status : ℕ} (h : 200 ≤ status ∧ status ≤ 299) (bodyOk : Bool) :
    bodyVerdict bodyOk status = if bodyOk then .ok else .captive := by
  have h511 : status ≠ 511 := by omega
  have hredirect : isRedirection status = false := by
    simp only [isRedirection, Bool.and_eq_false_iff, decide_eq_false_iff_not]
    omega
  have hsuccess : isSuccess status = true := by simp [isSuccess, h]
  simp [bodyVerdict, h511, hredirect, hsuccess]

theorem bodyVerdict_of_not_success {status : ℕ} (h : ¬(200 ≤ status ∧ status ≤ 299))
    (x y : Bool) : bodyVerdict x status = bodyVerdict y status := by
  have hsuccess : isSuccess status = false := by
    simpa [isSuccess] using h
  simp [bodyVerdict, hsuccess]

open Classical in
/-- With the verdicts of the other probes right, the consensus is the state unless it rests on a
wrong test of Microsoft's body. -/
theorem consensus_bodyVerdict_iff {apple google : Outcome} {a g : ProbeVerdict}
    (ha : Judges .apple apple a) (hg : Judges .google google g) (status : ℕ) (body : String)
    (bodyOk : Bool) :
    consensus [a, g, bodyVerdict bodyOk status] = stateOf apple google (.response status body) ↔
      ShowsPortal .apple apple ∨ ShowsPortal .google google ∨
        (200 ≤ status ∧ status ≤ 299 → (bodyOk = true ↔ BodyExpected .ms body)) := by
  have hm : Judges .ms (.response status body) (bodyVerdict _ status) :=
    judges_body (by decide) decide_eq_true_iff
  rw [← consensus_eq_stateOf ha hg hm, ← ha.captive, ← hg.captive]
  constructor
  · intro h
    by_cases hother : a = .captive ∨ g = .captive
    · tauto
    · rw [not_or] at hother
      right
      right
      intro hstatus
      -- with the others not captive, the state shows which of the two verdicts this one is
      have hsame : bodyVerdict bodyOk status = .captive ↔
          bodyVerdict (decide (BodyExpected .ms body)) status = .captive := by
        have hleft := consensus_eq_captivePortal (a := a) (g := g) (m := bodyVerdict bodyOk status)
        rw [h, consensus_eq_captivePortal] at hleft
        simpa [hother] using hleft.symm
      rw [bodyVerdict_of_success hstatus, bodyVerdict_of_success hstatus] at hsame
      cases bodyOk <;> simpa using hsame
  · rintro (hcaptive | hcaptive | hbody)
    · rw [consensus_eq_captivePortal.mpr (.inl hcaptive),
        consensus_eq_captivePortal.mpr (.inl hcaptive)]
    · rw [consensus_eq_captivePortal.mpr (.inr (.inl hcaptive)),
        consensus_eq_captivePortal.mpr (.inr (.inl hcaptive))]
    · by_cases hstatus : 200 ≤ status ∧ status ≤ 299
      · have hok : bodyOk = decide (BodyExpected .ms body) := by
          rw [Bool.eq_iff_iff, hbody hstatus, decide_eq_true_iff]
        rw [hok]
      · rw [bodyVerdict_of_not_success hstatus bodyOk]

variable (net : String → Outcome) (url : String)

theorem judges_apple :
    Judges .apple (net url) (probeApple (fun url => (net url).answer) url) := by
  rw [probeApple]
  cases net url with
  | failure => exact judges_failure _
  | response status body => exact judges_body (by decide) decide_eq_true_iff

theorem judges_google :
    Judges .google (net url) (probeGoogle (fun url => (net url).answer) url) := by
  rw [probeGoogle]
  cases net url with
  | failure => exact judges_failure _
  | response status body => exact judges_google_status status body

theorem judges_ms : Judges .ms (net url) (probeMs (fun url => (net url).answer) url) := by
  rw [probeMs]
  cases net url with
  | failure => exact judges_failure _
  | response status body =>
    have hbody : decide (trim body = msExpectedBody) = true ↔ BodyExpected .ms body :=
      decide_eq_true_iff
    simpa [Outcome.answer, bodyVerdict, http511NetworkAuthRequired] using
      judges_body (by decide) hbody

theorem detectNetworkState_eq_stateOf :
    detectNetworkState (fun url => (net url).answer) =
      stateOf (net appleUrl) (net googleUrl) (net msUrl) := by
  apply consensus_eq_stateOf
  · exact judges_apple net appleUrl
  · exact judges_google net googleUrl
  · exact judges_ms net msUrl

end Captive

end AgentExchange.Net
