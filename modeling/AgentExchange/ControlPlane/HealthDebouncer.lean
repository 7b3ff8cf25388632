import AgentExchange.Library.Debounce
import AgentExchange.ControlPlane.Transfers

/-!
# The health of an endpoint is debounced

`EndpointHealth` counts failures and successes in two saturating bytes. From any state,
whatever the counters hold, one probe does to it what one outcome does to the debouncer
of three failures and two successes: only the counter that speaks against the status
matters.
-/
namespace AgentExchange

open Library

namespace EndpointHealth

def onProbe (h : EndpointHealth) (success : Bool) (nowUnix : Int64) : EndpointHealth :=
  if success then h.onProbeSuccess nowUnix else h.onProbeFailure nowUnix

/-- The state after the probes, each an outcome and its time. -/
def folded (h : EndpointHealth) (probes : List (Bool × Int64)) : EndpointHealth :=
  probes.foldl (fun h probe => h.onProbe probe.1 probe.2) h

/-- The debouncer that the state implements. -/
def debouncer (h : EndpointHealth) : Debouncer :=
  match h.status with
  | .healthy => ⟨false, h.consecutiveFails.toNat⟩
  | .unhealthy => ⟨true, h.consecutiveSuccesses.toNat⟩

structure Bounded (h : EndpointHealth) : Prop where
  fails : h.consecutiveFails ≤ failThreshold
  successes : h.consecutiveSuccesses ≤ successThreshold

variable {h : EndpointHealth} {t₀ : Int64} {probes : List (Bool × Int64)}

theorem unhealthy_iff_down : h.status = .unhealthy ↔ h.debouncer.down = true := by
  unfold debouncer
  cases h.status <;> simp

theorem toNat_saturatingSucc (n : UInt8) : (saturatingSucc n).toNat = min 255 (n.toNat + 1) := by
  unfold saturatingSucc
  split_ifs with hn
  · subst hn
    rfl
  · have hne : n.toNat ≠ 255 := fun h => hn (UInt8.toNat_inj.mp h)
    have hlt := n.toNat_lt
    rw [UInt8.toNat_add]
    simp only [UInt8.reduceToNat]
    omega

theorem le_saturatingSucc {n t : UInt8} (ht : t ≠ 255) :
    t ≤ saturatingSucc n ↔ t.toNat ≤ n.toNat + 1 := by
  have hlt := t.toNat_lt
  have hne : t.toNat ≠ 255 := fun h => ht (UInt8.toNat_inj.mp h)
  rw [UInt8.le_iff_toNat_le, toNat_saturatingSucc]
  omega

theorem onProbeSuccess_unhealthy {fails successes : UInt8} {last : Option Int64}
    (nowUnix : Int64) : onProbeSuccess ⟨.unhealthy, fails, successes, last⟩ nowUnix =
      if successThreshold ≤ saturatingSucc successes then ⟨.healthy, 0, 0, some nowUnix⟩
      else ⟨.unhealthy, 0, saturatingSucc successes, some nowUnix⟩ := by
  unfold onProbeSuccess
  by_cases hflip : successThreshold ≤ saturatingSucc successes <;> simp [hflip]

theorem onProbeFailure_healthy {fails successes : UInt8} {last : Option Int64}
    (nowUnix : Int64) : onProbeFailure ⟨.healthy, fails, successes, last⟩ nowUnix =
      if failThreshold ≤ saturatingSucc fails then ⟨.unhealthy, 0, 0, some nowUnix⟩
      else ⟨.healthy, saturatingSucc fails, 0, some nowUnix⟩ := by
  unfold onProbeFailure
  by_cases hflip : failThreshold ≤ saturatingSucc fails <;> simp [hflip]

/-- One probe is one step of the debouncer, from any state. -/
theorem debouncer_onProbe (h : EndpointHealth) (success : Bool) (nowUnix : Int64) :
    (h.onProbe success nowUnix).debouncer = h.debouncer.step 3 2 success := by
  obtain ⟨status, fails, successes, last⟩ := h
  have hfails := le_saturatingSucc (n := fails) (t := failThreshold) (by decide)
  have hsuccesses := le_saturatingSucc (n := successes) (t := successThreshold) (by decide)
  cases success with
  | true =>
    cases status with
    | healthy => simp [onProbe, onProbeSuccess, debouncer, Debouncer.step]
    | unhealthy =>
      rw [onProbe, if_pos rfl, onProbeSuccess_unhealthy]
      split_ifs with hflip
      · have hge : 2 ≤ successes.toNat + 1 := hsuccesses.mp hflip
        simp [debouncer, Debouncer.step, Debouncer.threshold, hge]
      · have hlt : ¬ 2 ≤ successes.toNat + 1 := hsuccesses.not.mp hflip
        simp [debouncer, Debouncer.step, Debouncer.threshold, hlt, toNat_saturatingSucc]
        omega
  | false =>
    cases status with
    | healthy =>
      rw [onProbe, if_neg Bool.false_ne_true, onProbeFailure_healthy]
      split_ifs with hflip
      · have hge : 3 ≤ fails.toNat + 1 := hfails.mp hflip
        simp [debouncer, Debouncer.step, Debouncer.threshold, hge]
      · have hlt : ¬ 3 ≤ fails.toNat + 1 := hfails.not.mp hflip
        simp [debouncer, Debouncer.step, Debouncer.threshold, hlt, toNat_saturatingSucc]
        omega
    | unhealthy => simp [onProbe, onProbeFailure, debouncer, Debouncer.step]

/-- A probe resets one counter and caps the other one. -/
theorem bounded_onProbe (h : EndpointHealth) (success : Bool) (nowUnix : Int64) :
    (h.onProbe success nowUnix).Bounded := by
  obtain ⟨status, fails, successes, last⟩ := h
  cases success with
  | true =>
    refine ⟨by simp [onProbe, onProbeSuccess], ?_⟩
    simp only [onProbe, onProbeSuccess, if_true]
    cases status <;> split_ifs <;> simp_all [UInt8.not_lt, UInt8.le_of_lt]
  | false =>
    refine ⟨?_, by simp [onProbe, onProbeFailure]⟩
    simp only [onProbe, onProbeFailure, if_neg Bool.false_ne_true]
    cases status <;> split_ifs <;> simp_all [UInt8.not_lt, UInt8.le_of_lt]

theorem onProbe_lastProbeUnix (h : EndpointHealth) (success : Bool) (nowUnix : Int64) :
    (h.onProbe success nowUnix).lastProbeUnix = some nowUnix := by
  cases success <;> rfl

theorem folded_snoc (h : EndpointHealth) (probe : Bool × Int64) :
    h.folded (probes ++ [probe]) = (h.folded probes).onProbe probe.1 probe.2 :=
  List.foldl_concat ..

/-- All probes together are the debouncer run over their outcomes. -/
theorem debouncer_folded (h : EndpointHealth) (probes : List (Bool × Int64)) :
    (h.folded probes).debouncer = h.debouncer.after 3 2 (probes.map Prod.fst) := by
  induction probes using List.reverseRecOn with
  | nil => rfl
  | append_singleton probes probe ih =>
    rw [folded_snoc, debouncer_onProbe, ih, List.map_append, Debouncer.after_append]
    rfl

/-- What a state is after the probes that followed the admission at `t₀`. -/
structure Debounced (t₀ : Int64) (probes : List (Bool × Int64)) (h : EndpointHealth) : Prop where
  unhealthy_iff : h.status = .unhealthy ↔ Debouncer.Tripped 3 2 (probes.map Prod.fst)
  fails : h.consecutiveFails ≤ 3
  successes : h.consecutiveSuccesses ≤ 2
  lastProbe : h.lastProbeUnix = some ((probes.getLast?.map Prod.snd).getD t₀)

theorem debounced_folded (t₀ : Int64) (probes : List (Bool × Int64)) :
    Debounced t₀ probes ((freshHealthy t₀).folded probes) := by
  have hstatus : ((freshHealthy t₀).folded probes).status = .unhealthy ↔
      Debouncer.Tripped 3 2 (probes.map Prod.fst) := by
    rw [unhealthy_iff_down, debouncer_folded]
    exact (Debouncer.tracks_after (by decide) (by decide) _).down_iff
  rcases List.eq_nil_or_concat probes with rfl | ⟨probes, probe, rfl⟩
  · exact ⟨hstatus, show (0 : UInt8) ≤ 3 by decide, show (0 : UInt8) ≤ 2 by decide, rfl⟩
  · rw [List.concat_eq_append] at hstatus ⊢
    obtain ⟨hfails, hsuccesses⟩ := bounded_onProbe ((freshHealthy t₀).folded probes) probe.1 probe.2
    have hlast := onProbe_lastProbeUnix ((freshHealthy t₀).folded probes) probe.1 probe.2
    rw [← folded_snoc] at hfails hsuccesses hlast
    exact ⟨hstatus, hfails, hsuccesses, by simpa using hlast⟩

/-- A run of one outcome, as long as its threshold, decides from any state. -/
theorem debouncer_folded_run (h : EndpointHealth) (success : Bool) {times : List Int64}
    (hpos : 0 < times.length) (hlong : Debouncer.threshold 3 2 success ≤ times.length) :
    (h.folded (times.map (success, ·))).debouncer.down = !success := by
  have houtcomes : times.map (Prod.fst ∘ (success, ·)) = List.replicate times.length success :=
    List.map_const' ..
  rw [debouncer_folded, List.map_map, houtcomes]
  exact Debouncer.after_replicate _ _ hpos (by omega)

theorem unhealthy_of_failures (h : EndpointHealth) {times : List Int64} (hlong : 3 ≤ times.length) :
    (h.folded (times.map (false, ·))).status = .unhealthy :=
  unhealthy_iff_down.mpr (debouncer_folded_run h false (by omega) hlong)

theorem healthy_of_successes (h : EndpointHealth) {times : List Int64} (hlong : 2 ≤ times.length) :
    (h.folded (times.map (true, ·))).status = .healthy := by
  have hup := debouncer_folded_run h true (by omega) hlong
  unfold debouncer at hup
  cases hstatus : (h.folded (times.map (true, ·))).status with
  | healthy => rfl
  | unhealthy => simp [hstatus] at hup

end EndpointHealth

open EndpointHealth ControlPlane

/-- `fold_health` over the ticks that probed the endpoint. -/
def Endpoint.folded (ep : Endpoint) (probes : List (Bool × Int64)) : Endpoint :=
  probes.foldl (fun ep probe => foldHealth ep probe.1 probe.2) ep

theorem foldHealth_eq (ep : Endpoint) (success : Bool) (nowUnix : Int64) :
    foldHealth ep success nowUnix =
      { ep with health := some ((ep.health.getD (freshHealthy nowUnix)).onProbe success nowUnix) } :=
  rfl

/-- The ticks fold the probes into the health and keep everything else. -/
theorem Endpoint.folded_of_health (ep : Endpoint) (h : EndpointHealth)
    (probes : List (Bool × Int64)) :
    { ep with health := some h }.folded probes = { ep with health := some (h.folded probes) } := by
  induction probes using List.reverseRecOn with
  | nil => rfl
  | append_singleton probes probe ih =>
    rw [EndpointHealth.folded_snoc, Endpoint.folded, List.foldl_concat]
    change foldHealth ({ ep with health := some h }.folded probes) probe.1 probe.2 = _
    rw [ih]
    rfl

/-- The first tick seeds the state at the time of its own probe. -/
theorem Endpoint.folded_of_none (ep : Endpoint) (probe : Bool × Int64)
    (probes : List (Bool × Int64)) : { ep with health := none }.folded (probe :: probes) =
      { ep with health := some ((freshHealthy probe.2).folded (probe :: probes)) } :=
  Endpoint.folded_of_health ep ((freshHealthy probe.2).onProbe probe.1 probe.2) probes

/-- The health of an endpoint is the pattern over all its probes; a run as long as the threshold
sets it right from whatever state was stored. -/
theorem health_debounced :
    (∀ t₀ probes, Debounced t₀ probes ((freshHealthy t₀).folded probes)) ∧
    (∀ (ep : Endpoint) t₀ probes, ∃ h, Debounced t₀ probes h ∧
      { ep with health := some (freshHealthy t₀) }.folded probes = { ep with health := some h }) ∧
    (∀ (ep : Endpoint) probe probes, ∃ h, Debounced probe.2 (probe :: probes) h ∧
      { ep with health := none }.folded (probe :: probes) = { ep with health := some h }) ∧
    ∀ (h : EndpointHealth) (times : List Int64),
      (3 ≤ times.length → (h.folded (times.map (false, ·))).status = .unhealthy) ∧
      (2 ≤ times.length → (h.folded (times.map (true, ·))).status = .healthy) := by
  refine ⟨debounced_folded, fun ep t₀ probes => ?_, fun ep probe probes => ?_, fun h times => ?_⟩
  · exact ⟨_, debounced_folded t₀ probes, Endpoint.folded_of_health ep _ probes⟩
  · exact ⟨_, debounced_folded probe.2 _, Endpoint.folded_of_none ep probe probes⟩
  · exact ⟨unhealthy_of_failures h, healthy_of_successes h⟩

/-- Saturated counters do not keep three failures from counting. -/
theorem health_debounced_saturated :
    ((⟨.healthy, 255, 255, none⟩ : EndpointHealth).folded
      ([1, 2, 3].map (false, ·))).status = .unhealthy :=
  (health_debounced.2.2.2 ⟨.healthy, 255, 255, none⟩ [1, 2, 3]).1 (by decide)

end AgentExchange
