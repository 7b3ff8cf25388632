import AgentExchange.Library.Machine
import AgentExchange.Tunnel.Providers

/-!
# The state machine of a provider

What a caller may rely on after each call: the status and the URL agree, and a provider
that has failed, ended or been stopped is disconnected and can be started. The invariant
behind it says that a provider is either connected and running, or disconnected and not.
For each of the five, the calls after which the promise is kept are characterised by what
the steps outside came to.
-/
namespace AgentExchange.Tunnel

open Library

inductive Call where
  | start (localPort : UInt16)
  | stop
  | isAlive
  deriving DecidableEq

/-- What a call gave back. -/
inductive Report where
  | none
  | started (result : Except TunnelError Unit)
  | stopped (result : Except TunnelError Unit)
  | checked (alive : Bool) (found : TryWait)

/-- `TunnelProvider`, and `is_alive` where the provider has it. -/
structure TunnelProvider where
  Self : Type
  start : Self → UInt16 → Outcomes → Except TunnelError Unit × Self
  stop : Self → Outcomes → Except TunnelError Unit × Self
  isAlive : Option (Self → Outcomes → Bool × Self) := none
  publicUrl : Self → Option String
  status : Self → TunnelStatus

namespace TunnelProvider

/-- A provider in use, with what its last call gave back. -/
structure Session (p : TunnelProvider) where
  report : Report := .none
  self : p.Self

variable (p : TunnelProvider)

def next (s : p.Session) (l : Call × Outcomes) : p.Session :=
  match l.1 with
  | .start localPort =>
    let out := p.start s.self localPort l.2
    ⟨.started out.1, out.2⟩
  | .stop =>
    let out := p.stop s.self l.2
    ⟨.stopped out.1, out.2⟩
  | .isAlive =>
    match p.isAlive with
    | some isAlive =>
      let out := isAlive s.self l.2
      ⟨.checked out.1 l.2.tryWait, out.2⟩
    | none => ⟨.none, s.self⟩

def Disconnected (t : p.Self) : Prop := ∃ reason, p.status t = .disconnected reason

/-- A start is not refused because the provider is running. -/
def Startable (t : p.Self) : Prop :=
  ∀ localPort w, (p.start t localPort w).1 ≠ .error .alreadyRunning

/-- What holds after a call. -/
structure Sound (s : p.Session) : Prop where
  agree : ∀ url, p.status s.self = .connected url ↔ p.publicUrl s.self = some url
  failed : ∀ e, s.report = .started (.error e) → e ≠ .alreadyRunning →
    p.Disconnected s.self ∧ p.Startable s.self
  exited : s.report = .checked false .exited → p.Startable s.self
  stopped : ∀ r, s.report = .stopped r → p.Disconnected s.self ∧ p.publicUrl s.self = none

/-- In order after every call of the run. -/
def SoundThroughout (t : p.Self) (labels : List (Call × Outcomes)) : Prop :=
  ∀ done, done <+: labels → p.Sound (Machine.run p.next ⟨.none, t⟩ done)

/-- A provider is in order after every call of a run just where all calls meet the condition. -/
def SoundExactly (t : p.Self) (C : p.Self → Call × Outcomes → Bool) : Prop :=
  ∀ labels, p.SoundThroughout t labels ↔
    Machine.Along p.next (fun s l => C s.self l = true) ⟨.none, t⟩ labels

/-- Connected and running, or disconnected and not. -/
def Settled (running : p.Self → Bool) (t : p.Self) : Prop :=
  (running t = false ∧ p.Disconnected t ∧ p.publicUrl t = none) ∨
    (running t = true ∧ ∃ url, p.status t = .connected url ∧ p.publicUrl t = some url)

end TunnelProvider

/-- Reports after which a provider is to be at rest. -/
def Report.ended : Report → Bool
  | .started (.error e) => e ≠ .alreadyRunning
  | .stopped _ => true
  | .checked false .exited => true
  | _ => false

namespace TunnelProvider

variable {p : TunnelProvider} {running : p.Self → Bool}

theorem Settled.new {t : p.Self} (hrunning : running t = false) (hstatus : p.Disconnected t)
    (hurl : p.publicUrl t = none) : p.Settled running t :=
  Or.inl ⟨hrunning, hstatus, hurl⟩

theorem Settled.agree {t : p.Self} (h : p.Settled running t) (url : String) :
    p.status t = .connected url ↔ p.publicUrl t = some url := by
  rcases h with ⟨-, ⟨reason, hstatus⟩, hurl⟩ | ⟨-, url', hstatus, hurl⟩
  · simp [hstatus, hurl]
  · simp [hstatus, hurl]

/-- What a start does to a settled provider, and whether the condition allows it. -/
inductive StartStep (p : TunnelProvider) (running : p.Self → Bool) (t : p.Self) :
    Bool → Except TunnelError Unit × p.Self → Prop
  | refused (h : running t = true) : StartStep p running t true (.error .alreadyRunning, t)
  | up {t' : p.Self} {url : String} (hrunning : running t' = true)
      (hstatus : p.status t' = .connected url) (hurl : p.publicUrl t' = some url) :
      StartStep p running t true (.ok (), t')
  | down {e : TunnelError} {t' : p.Self} (he : e ≠ .alreadyRunning) (hrunning : running t' = false)
      (hstatus : p.Disconnected t') (hurl : p.publicUrl t' = none) :
      StartStep p running t true (.error e, t')
  | stuck {e : TunnelError} {t' : p.Self} (he : e ≠ .alreadyRunning)
      (h : ¬(p.Disconnected t' ∧ p.Startable t')) : StartStep p running t false (.error e, t')

inductive StopStep (p : TunnelProvider) (running : p.Self → Bool) :
    Bool → Except TunnelError Unit × p.Self → Prop
  | down {r : Except TunnelError Unit} {t' : p.Self} (hrunning : running t' = false)
      (hstatus : p.Disconnected t') (hurl : p.publicUrl t' = none) : StopStep p running true (r, t')
  | stuck {r : Except TunnelError Unit} {t' : p.Self} (h : ¬p.Disconnected t') :
      StopStep p running false (r, t')

inductive AliveStep (p : TunnelProvider) (running : p.Self → Bool) (t : p.Self) (found : TryWait) :
    Bool → Bool × p.Self → Prop
  | idle {alive : Bool} (h : found = .exited → running t = false) :
    AliveStep p running t found true (alive, t)
  | stuck {t' : p.Self} (hfound : found = .exited) (h : ¬p.Startable t') :
    AliveStep p running t found false (false, t')

/-- What is to be shown of the calls on a settled provider. -/
structure Characterises (p : TunnelProvider) (running : p.Self → Bool)
    (C : p.Self → Call × Outcomes → Bool) : Prop where
  start : ∀ t localPort w, p.Settled running t →
    StartStep p running t (C t (.start localPort, w)) (p.start t localPort w)
  stop : ∀ t w, p.Settled running t → StopStep p running (C t (.stop, w)) (p.stop t w)
  isAlive : ∀ f ∈ p.isAlive, ∀ t w, p.Settled running t →
    AliveStep p running t w.tryWait (C t (.isAlive, w)) (f t w)
  absent : p.isAlive = none → ∀ t w, C t (.isAlive, w) = true

theorem StartStep.of_refused {t : p.Self} {allowed : Bool}
    {out : Except TunnelError Unit × p.Self} (h : StartStep p running t allowed out)
    (hout : out.1 = .error .alreadyRunning) : running t = true := by
  cases h with
  | refused h => exact h
  | up hrunning hstatus hurl => cases hout
  | down he hrunning hstatus hurl =>
    injection hout with he'
    exact absurd he' he
  | stuck he h =>
    injection hout with he'
    exact absurd he' he

variable {C : p.Self → Call × Outcomes → Bool}

/-- A settled provider that is at rest where it should be is in order. -/
theorem Settled.sound (hC : Characterises p running C) {s : p.Session}
    (h : p.Settled running s.self) (hended : s.report.ended = true → running s.self = false) :
    p.Sound s := by
  have hrest (he : s.report.ended = true) :
      p.Disconnected s.self ∧ p.publicUrl s.self = none ∧ p.Startable s.self := by
    have hrunning := hended he
    rcases id h with ⟨-, hstatus, hurl⟩ | ⟨htrue, -⟩
    · refine ⟨hstatus, hurl, ?_⟩
      intro localPort w hstart
      rw [(hC.start s.self localPort w h).of_refused hstart] at hrunning
      cases hrunning
    · rw [htrue] at hrunning
      cases hrunning
  constructor
  · exact h.agree
  · intro e he hne
    obtain ⟨hstatus, -, hstartable⟩ := hrest (by simp [he, Report.ended, hne])
    exact ⟨hstatus, hstartable⟩
  · intro he
    exact (hrest (by simp [he, Report.ended])).2.2
  · intro r hr
    obtain ⟨hstatus, hurl, -⟩ := hrest (by simp [hr, Report.ended])
    exact ⟨hstatus, hurl⟩

/-- A call that meets the condition leaves the provider settled, and at rest where it should be. -/
theorem Characterises.settles (hC : Characterises p running C) {s : p.Session}
    {l : Call × Outcomes} (hs : p.Settled running s.self) (hl : C s.self l = true) :
    p.Settled running (p.next s l).self ∧
      ((p.next s l).report.ended = true → running (p.next s l).self = false) := by
  obtain ⟨call, w⟩ := l
  cases call with
  | start localPort =>
    have hstep := hC.start s.self localPort w hs
    rw [hl] at hstep
    simp only [next]
    generalize p.start s.self localPort w = out at hstep
    cases hstep with
    | refused h => exact ⟨hs, by simp [Report.ended]⟩
    | up hrunning hstatus hurl => exact ⟨Or.inr ⟨hrunning, _, hstatus, hurl⟩, by simp [Report.ended]⟩
    | down he hrunning hstatus hurl => exact ⟨Or.inl ⟨hrunning, hstatus, hurl⟩, fun _ => hrunning⟩
  | stop =>
    have hstep := hC.stop s.self w hs
    rw [hl] at hstep
    simp only [next]
    generalize p.stop s.self w = out at hstep
    cases hstep with
    | down hrunning hstatus hurl => exact ⟨Or.inl ⟨hrunning, hstatus, hurl⟩, fun _ => hrunning⟩
  | isAlive =>
    cases hf : p.isAlive with
    | none =>
      simp only [next, hf]
      exact ⟨hs, by simp [Report.ended]⟩
    | some f =>
      have hstep := hC.isAlive f hf s.self w hs
      rw [hl] at hstep
      simp only [next, hf]
      generalize f s.self w = out at hstep
      cases hstep with
      | idle h =>
        refine ⟨hs, fun hended => h ?_⟩
        revert hended
        rename_i alive
        cases alive <;> cases w.tryWait <;> simp [Report.ended]

/-- A call that does not meet the condition leaves the provider out of order. -/
theorem Characterises.upsets (hC : Characterises p running C) {s : p.Session}
    {l : Call × Outcomes} (hs : p.Settled running s.self) (hl : C s.self l = false) :
    ¬p.Sound (p.next s l) := by
  intro hsound
  obtain ⟨call, w⟩ := l
  cases call with
  | start localPort =>
    have hstep := hC.start s.self localPort w hs
    rw [hl] at hstep
    simp only [next] at hsound
    generalize p.start s.self localPort w = out at hstep hsound
    cases hstep with
    | stuck he h => exact h (hsound.failed _ rfl he)
  | stop =>
    have hstep := hC.stop s.self w hs
    rw [hl] at hstep
    simp only [next] at hsound
    generalize p.stop s.self w = out at hstep hsound
    cases hstep with
    | stuck h => exact h (hsound.stopped _ rfl).1
  | isAlive =>
    cases hf : p.isAlive with
    | none => simp [hC.absent hf] at hl
    | some f =>
      have hstep := hC.isAlive f hf s.self w hs
      rw [hl] at hstep
      simp only [next, hf] at hsound
      generalize f s.self w = out at hstep hsound
      cases hstep with
      | stuck hfound h => exact h (hsound.exited (by rw [hfound]))

theorem Characterises.soundExactly (hC : Characterises p running C) {t : p.Self}
    (ht : p.Settled running t) : p.SoundExactly t C := by
  intro labels
  apply Machine.everywhere_iff_along (H := fun _ _ => True)
    (I := fun s => p.Settled running s.self ∧ (s.report.ended = true → running s.self = false))
  · exact Machine.along_true _ _
  · exact ⟨ht, by simp [Report.ended]⟩
  · exact fun s hs => hs.1.sound hC hs.2
  · exact fun s l hs _ hl => hC.settles hs.1 hl
  · exact fun s l hs _ hl => hC.upsets hs.1 (by simpa using hl)

end TunnelProvider

end AgentExchange.Tunnel
