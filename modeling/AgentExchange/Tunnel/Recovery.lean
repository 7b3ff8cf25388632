import AgentExchange.Tunnel.StateMachine

/-!
# The providers, call by call

Only Iroh keeps its promises whatever happens.
-/
namespace AgentExchange.Tunnel

open Library

/-! ## The five providers -/

def CloudflareQuickTunnel.provider : TunnelProvider where
  Self := CloudflareQuickTunnel
  start := start
  stop := stop
  isAlive := some isAlive
  publicUrl := publicUrl
  status := status

def NamedCloudflareTunnel.provider : TunnelProvider where
  Self := NamedCloudflareTunnel
  start := start
  stop := stop
  isAlive := some isAlive
  publicUrl := cachedUrl
  status := status

def TailscaleFunnelTunnel.provider : TunnelProvider where
  Self := TailscaleFunnelTunnel
  start := start
  stop := stop
  publicUrl := cachedUrl
  status := status

def FrpTunnel.provider : TunnelProvider where
  Self := FrpTunnel
  start := start
  stop := stop
  isAlive := some isAlive
  publicUrl := cachedUrl
  status := status

def IrohTunnel.provider : TunnelProvider where
  Self := IrohTunnel
  start := start
  stop := stop
  publicUrl := publicUrl
  status := status

/-- The child, if there is one, is not found to have exited. -/
def childRuns (child : Option Child) (w : Outcomes) : Bool := child.isNone || w.tryWait ≠ .exited

/-- A start that is not refused finds `cloudflared`, spawns it and sees its URL. -/
def CloudflareQuickTunnel.recovers (t : CloudflareQuickTunnel) : Call × Outcomes → Bool
  | (.start localPort, w) => t.child.isSome ||
    match resolveBinary t.binaryPath candidatePaths "--version"
      (.cloudflaredNotFound candidatePaths) w.runs with
    | .ok binary => (w.spawn binary ["tunnel", "--url", "http://127.0.0.1:" ++ toString localPort,
        "--no-autoupdate"]).isOk && w.stderr && (w.url ≠ .closed && w.url ≠ .expired)
    | .error _ => false
  | (.isAlive, w) => childRuns t.child w
  | (.stop, _) => true

def NamedCloudflareTunnel.recovers (t : NamedCloudflareTunnel) : Call × Outcomes → Bool
  | (.isAlive, w) => childRuns t.child w
  | _ => true

def FrpTunnel.recovers (t : FrpTunnel) : Call × Outcomes → Bool
  | (.isAlive, w) => childRuns t.child w
  | _ => true

/-- The command that switches the funnel on succeeds. -/
def TailscaleFunnelTunnel.switchesOn (t : TailscaleFunnelTunnel) (localPort : UInt16)
    (w : Outcomes) : Bool :=
  match resolveBinary t.binaryPath candidatePaths "version" notFound w.runs with
  | .ok binary =>
    match w.output binary ["funnel", "--bg", toString localPort] with
    | .ok output => output.success
    | .error _ => false
  | .error _ => false

/-- Where the funnel is to be switched off, `tailscale` is found. -/
def TailscaleFunnelTunnel.recovers (t : TailscaleFunnelTunnel) : Call × Outcomes → Bool
  | (.start localPort, w) => t.active || !t.switchesOn localPort w ||
    (probeUntilReady t.publicUrl t.readyTimeout w).isOk ||
    (resolveBinary t.binaryPath candidatePaths "version" notFound w.runsAtStop).isOk
  | (.stop, w) => !t.active ||
    (resolveBinary t.binaryPath candidatePaths "version" notFound w.runsAtStop).isOk
  | (.isAlive, _) => true

theorem resolveBinary_eq_error {binaryPath : Option String} {candidatePaths : List String}
    {versionArg : String} {notFound e : TunnelError} {runs : String → String → Bool}
    (h : resolveBinary binaryPath candidatePaths versionArg notFound runs = .error e) :
    e = notFound := by
  unfold resolveBinary at h
  split at h
  · cases h
  · split at h
    · cases h
    · injection h with h
      exact h.symm

theorem probeUntilReady_ne {publicUrl : String} {readyTimeout : ℕ} {w : Outcomes}
    {e : TunnelError} (h : probeUntilReady publicUrl readyTimeout w = .error e) :
    e ≠ .alreadyRunning := by
  rintro rfl
  unfold probeUntilReady at h
  split at h
  · cases h
  · split_ifs at h
    cases h

/-- The `is_alive` of a provider that keeps its child. -/
theorem TunnelProvider.AliveStep.of_child {p : TunnelProvider} {running : p.Self → Bool}
    {t : p.Self} {out : Bool × p.Self} {child : Option Child} {w : Outcomes}
    (hrunning : running t = child.isSome) (hruns : childRuns child w = true → out.2 = t)
    (hexited : child.isSome = true → w.tryWait = .exited → out.1 = false ∧ ¬p.Startable out.2) :
    AliveStep p running t w.tryWait (childRuns child w) out := by
  obtain ⟨alive, t'⟩ := out
  cases hchild : childRuns child w with
  | true =>
    obtain rfl : t' = t := hruns hchild
    apply AliveStep.idle
    intro hfound
    simpa [childRuns, hfound, hrunning] using hchild
  | false =>
    obtain ⟨hsome, hfound⟩ : child.isSome = true ∧ w.tryWait = .exited := by
      simpa [childRuns, Option.isSome_iff_ne_none] using hchild
    obtain ⟨rfl, hstart⟩ := hexited hsome hfound
    exact .stuck hfound hstart

namespace CloudflareQuickTunnel

abbrev running (t : CloudflareQuickTunnel) : Bool := t.child.isSome

theorem not_startable {t : CloudflareQuickTunnel} (h : t.child.isSome = true) :
    ¬provider.Startable t := by
  intro hstartable
  exact hstartable 0 {} (by simp [provider, start, h])

theorem start_step (t : CloudflareQuickTunnel) (localPort : UInt16) (w : Outcomes) :
    TunnelProvider.StartStep provider running t (t.recovers (.start localPort, w))
      (t.start localPort w) := by
  by_cases hchild : t.child.isSome = true
  · have hstart : t.start localPort w = (.error .alreadyRunning, t) := by simp [start, hchild]
    have hallowed : t.recovers (.start localPort, w) = true := by simp [recovers, hchild]
    rw [hstart, hallowed]
    exact .refused hchild
  · have hconnecting (t : CloudflareQuickTunnel) (h : t.status = .connecting) :
        ¬provider.Disconnected t := by
      rintro ⟨reason, hreason⟩
      rw [show provider.status t = t.status from rfl, h] at hreason
      cases hreason
    cases hbinary : resolveBinary t.binaryPath candidatePaths "--version"
      (.cloudflaredNotFound candidatePaths) w.runs with
    | error e =>
      simp only [start, recovers, hchild, hbinary]
      refine .stuck ?_ fun h => hconnecting _ rfl h.1
      rw [resolveBinary_eq_error hbinary]
      simp
    | ok binary =>
      cases hspawn : w.spawn binary
        ["tunnel", "--url", "http://127.0.0.1:" ++ toString localPort, "--no-autoupdate"] with
      | error e =>
        simp only [start, recovers, hchild, hbinary, hspawn]
        exact .stuck (by simp) fun h => hconnecting _ rfl h.1
      | ok child =>
        cases hstderr : w.stderr with
        | false =>
          simp only [start, recovers, hchild, hbinary, hspawn, hstderr]
          exact .stuck (by simp) fun h => hconnecting _ rfl h.1
        | true =>
          simp only [start, recovers, hchild, hbinary, hspawn, hstderr]
          cases hurl : w.url with
          | url u => exact .up rfl rfl rfl
          | closed => exact .stuck (by simp) fun h => not_startable rfl h.2
          | expired => exact .stuck (by simp) fun h => not_startable rfl h.2

theorem isAlive_step (t : CloudflareQuickTunnel) (w : Outcomes) :
    TunnelProvider.AliveStep provider running t w.tryWait (childRuns t.child w) (t.isAlive w) := by
  apply TunnelProvider.AliveStep.of_child rfl
  · cases hchild : t.child <;> cases hfound : w.tryWait <;>
      simp [isAlive, childRuns, hchild, hfound] <;> rfl
  · intro hsome hfound
    obtain ⟨child, hchild⟩ := Option.isSome_iff_exists.mp hsome
    simp only [isAlive, hchild, hfound]
    exact ⟨trivial, not_startable (by simp)⟩

theorem characterises : provider.Characterises running recovers where
  start t localPort w _ := start_step t localPort w
  stop t w _ := .down rfl ⟨_, rfl⟩ rfl
  isAlive f hf t w _ := by
    cases hf
    exact isAlive_step t w
  absent h := by cases h

end CloudflareQuickTunnel

namespace NamedCloudflareTunnel

abbrev running (t : NamedCloudflareTunnel) : Bool := t.child.isSome

theorem not_startable {t : NamedCloudflareTunnel} (h : t.child.isSome = true) :
    ¬provider.Startable t := by
  intro hstartable
  exact hstartable 0 {} (by simp [provider, start, h])

theorem start_step {t : NamedCloudflareTunnel} (localPort : UInt16) (w : Outcomes)
    (ht : provider.Settled running t) :
    TunnelProvider.StartStep provider running t true (t.start localPort w) := by
  rcases ht with ⟨hchild, -, hurl⟩ | ⟨hchild, -⟩
  · have hnone : t.child = none := by simpa [running] using hchild
    cases hbinary : resolveBinary t.binaryPath CloudflareQuickTunnel.candidatePaths "--version"
      (.cloudflaredNotFound CloudflareQuickTunnel.candidatePaths) w.runs with
    | error e =>
      simp only [start, hnone, hbinary]
      refine .down ?_ rfl ⟨_, rfl⟩ hurl
      rw [resolveBinary_eq_error hbinary]
      simp
    | ok binary =>
      cases hspawn : w.spawn binary ["tunnel", "--url", "http://127.0.0.1:" ++ toString localPort,
        "--no-autoupdate", "run", "--token", t.tunnelToken] with
      | error e =>
        simp only [start, hnone, hbinary, hspawn]
        exact .down (by simp) rfl ⟨_, rfl⟩ hurl
      | ok child =>
        cases hprobe : probeUntilReady t.publicUrl t.readyTimeout w with
        | error e =>
          simp only [start, hnone, hbinary, hspawn, hprobe]
          exact .down (probeUntilReady_ne hprobe) rfl ⟨_, rfl⟩ hurl
        | ok =>
          simp only [start, hnone, hbinary, hspawn, hprobe]
          exact .up rfl rfl rfl
  · have hstart : t.start localPort w = (.error .alreadyRunning, t) := by simp [start, hchild]
    rw [hstart]
    exact .refused hchild

theorem isAlive_step (t : NamedCloudflareTunnel) (w : Outcomes) :
    TunnelProvider.AliveStep provider running t w.tryWait (childRuns t.child w) (t.isAlive w) := by
  apply TunnelProvider.AliveStep.of_child rfl
  · cases hchild : t.child <;> cases hfound : w.tryWait <;>
      simp [isAlive, childRuns, hchild, hfound] <;> rfl
  · intro hsome hfound
    obtain ⟨child, hchild⟩ := Option.isSome_iff_exists.mp hsome
    simp only [isAlive, hchild, hfound]
    exact ⟨trivial, not_startable (by simp)⟩

theorem characterises : provider.Characterises running recovers where
  start t localPort w ht := start_step localPort w ht
  stop t w _ := .down rfl ⟨_, rfl⟩ rfl
  isAlive f hf t w _ := by
    cases hf
    exact isAlive_step t w
  absent h := by cases h

end NamedCloudflareTunnel

namespace FrpTunnel

abbrev running (t : FrpTunnel) : Bool := t.child.isSome

theorem not_startable {t : FrpTunnel} (h : t.child.isSome = true) : ¬provider.Startable t := by
  intro hstartable
  exact hstartable 0 {} (by simp [provider, start, h])

theorem start_step {t : FrpTunnel} (localPort : UInt16) (w : Outcomes)
    (ht : provider.Settled running t) :
    TunnelProvider.StartStep provider running t true (t.start localPort w) := by
  rcases ht with ⟨hchild, -, hurl⟩ | ⟨hchild, -⟩
  · have hnone : t.child = none := by simpa [running] using hchild
    cases hbinary : resolveBinary t.binaryPath candidatePaths "--version"
      (.other ("frpc binary not found; tried " ++ debugList candidatePaths)) w.runs with
    | error e =>
      simp only [start, hnone, hbinary]
      refine .down ?_ rfl ⟨_, rfl⟩ hurl
      rw [resolveBinary_eq_error hbinary]
      simp
    | ok binary =>
      cases htempfile : w.tempfile with
      | error e =>
        simp only [start, hnone, hbinary, htempfile]
        exact .down (by simp) rfl ⟨_, rfl⟩ hurl
      | ok path =>
        cases hconfig : w.writeConfig path (renderConfig
          { t with child := none, status := .connecting } localPort) with
        | error e =>
          simp only [start, hnone, hbinary, htempfile, hconfig]
          exact .down (by simp) rfl ⟨_, rfl⟩ hurl
        | ok =>
          cases hspawn : w.spawn binary ["-c", path] with
          | error e =>
            simp only [start, hnone, hbinary, htempfile, hconfig, hspawn]
            exact .down (by simp) rfl ⟨_, rfl⟩ hurl
          | ok child =>
            cases hprobe : probeUntilReady t.publicUrl t.readyTimeout w with
            | error e =>
              simp only [start, hnone, hbinary, htempfile, hconfig, hspawn, hprobe]
              exact .down (probeUntilReady_ne hprobe) rfl ⟨_, rfl⟩ hurl
            | ok =>
              simp only [start, hnone, hbinary, htempfile, hconfig, hspawn, hprobe]
              exact .up rfl rfl rfl
  · have hstart : t.start localPort w = (.error .alreadyRunning, t) := by simp [start, hchild]
    rw [hstart]
    exact .refused hchild

theorem isAlive_step (t : FrpTunnel) (w : Outcomes) :
    TunnelProvider.AliveStep provider running t w.tryWait (childRuns t.child w) (t.isAlive w) := by
  apply TunnelProvider.AliveStep.of_child rfl
  · cases hchild : t.child <;> cases hfound : w.tryWait <;>
      simp [isAlive, childRuns, hchild, hfound] <;> rfl
  · intro hsome hfound
    obtain ⟨child, hchild⟩ := Option.isSome_iff_exists.mp hsome
    simp only [isAlive, hchild, hfound]
    exact ⟨trivial, not_startable (by simp)⟩

theorem characterises : provider.Characterises running recovers where
  start t localPort w ht := start_step localPort w ht
  stop t w _ := .down rfl ⟨_, rfl⟩ rfl
  isAlive f hf t w _ := by
    cases hf
    exact isAlive_step t w
  absent h := by cases h

end FrpTunnel

namespace TailscaleFunnelTunnel

theorem start_step {t : TailscaleFunnelTunnel} (localPort : UInt16) (w : Outcomes)
    (ht : provider.Settled active t) :
    TunnelProvider.StartStep provider active t (t.recovers (.start localPort, w))
      (t.start localPort w) := by
  rcases ht with ⟨hactive, -, hurl⟩ | ⟨hactive, -⟩
  · cases hbinary : resolveBinary t.binaryPath candidatePaths "version" notFound w.runs with
    | error e =>
      simp only [start, recovers, switchesOn, hactive, hbinary]
      refine .down ?_ rfl ⟨_, rfl⟩ hurl
      rw [resolveBinary_eq_error hbinary]
      simp [notFound]
    | ok binary =>
      cases houtput : w.output binary ["funnel", "--bg", toString localPort] with
      | error e =>
        simp only [start, recovers, switchesOn, hactive, hbinary, houtput]
        exact .down (by simp) rfl ⟨_, rfl⟩ hurl
      | ok output =>
        cases hsuccess : output.success with
        | false =>
          simp only [start, recovers, switchesOn, hactive, hbinary, houtput, hsuccess]
          exact .down (by simp) rfl ⟨_, rfl⟩ hurl
        | true =>
          cases hprobe : probeUntilReady t.publicUrl t.readyTimeout w with
          | ok =>
            simp only [start, recovers, switchesOn, hactive, hbinary, houtput, hsuccess, hprobe]
            exact .up rfl rfl rfl
          | error e =>
            have he := probeUntilReady_ne hprobe
            -- the stop that follows looks for the binary once more
            cases hstop : resolveBinary t.binaryPath candidatePaths "version" notFound
                w.runsAtStop with
            | ok binary' =>
              simp only [start, stop, recovers, switchesOn, hactive, hbinary, houtput, hsuccess,
                hprobe, hstop]
              exact .down he rfl ⟨_, rfl⟩ rfl
            | error e' =>
              simp only [start, stop, recovers, switchesOn, hactive, hbinary, houtput, hsuccess,
                hprobe, hstop]
              refine .stuck he ?_
              rintro ⟨⟨reason, hreason⟩, -⟩
              cases hreason
  · have hstart : t.start localPort w = (.error .alreadyRunning, t) := by simp [start, hactive]
    have hallowed : t.recovers (.start localPort, w) = true := by simp [recovers, hactive]
    rw [hstart, hallowed]
    exact .refused hactive

theorem stop_step {t : TailscaleFunnelTunnel} (w : Outcomes) (ht : provider.Settled active t) :
    TunnelProvider.StopStep provider active (t.recovers (.stop, w)) (t.stop w) := by
  rcases ht with ⟨hactive, -⟩ | ⟨hactive, url, hstatus, -⟩
  · simp only [stop, recovers, hactive]
    exact .down rfl ⟨_, rfl⟩ rfl
  · cases hbinary : resolveBinary t.binaryPath candidatePaths "version" notFound w.runsAtStop with
    | error e =>
      simp only [stop, recovers, hactive, hbinary]
      refine .stuck ?_
      rintro ⟨reason, hreason⟩
      rw [hstatus] at hreason
      cases hreason
    | ok binary =>
      simp only [stop, recovers, hactive, hbinary]
      exact .down rfl ⟨_, rfl⟩ rfl

theorem characterises : provider.Characterises active recovers where
  start t localPort w ht := start_step localPort w ht
  stop t w ht := stop_step w ht
  isAlive f hf := by cases hf
  absent _ _ _ := rfl

end TailscaleFunnelTunnel

namespace IrohTunnel

abbrev running (t : IrohTunnel) : Bool := t.endpoint.isSome

theorem start_step {t : IrohTunnel} (localPort : UInt16) (w : Outcomes)
    (ht : provider.Settled running t) :
    TunnelProvider.StartStep provider running t true (t.start localPort w) := by
  rcases ht with ⟨hendpoint, -, hurl⟩ | ⟨hendpoint, -⟩
  · have hnone : t.endpoint = none := by simpa [running] using hendpoint
    cases hbind : w.bind with
    | error e =>
      simp only [start, hnone, hbind]
      exact .down (by simp) rfl ⟨_, rfl⟩ hurl
    | ok =>
      cases honline : w.online with
      | false =>
        simp only [start, hnone, hbind, honline]
        exact .down (by simp) rfl ⟨_, rfl⟩ hurl
      | true =>
        simp only [start, hnone, hbind, honline]
        exact .up rfl rfl rfl
  · have hstart : t.start localPort w = (.error .alreadyRunning, t) := by simp [start, hendpoint]
    rw [hstart]
    exact .refused hendpoint

theorem characterises : provider.Characterises running fun _ _ => true where
  start t localPort w ht := start_step localPort w ht
  stop t w _ := .down rfl ⟨_, rfl⟩ rfl
  isAlive f hf := by cases hf
  absent _ _ _ := rfl

end IrohTunnel

theorem providers_sound_exactly (tunnelToken publicUrl : String) (server : FrpServer)
    (binaryPath : Option String) (readyTimeout onlineTimeout : ℕ) :
    CloudflareQuickTunnel.provider.SoundExactly (.new binaryPath)
        CloudflareQuickTunnel.recovers ∧
      NamedCloudflareTunnel.provider.SoundExactly
        (.new tunnelToken publicUrl binaryPath readyTimeout) NamedCloudflareTunnel.recovers ∧
      TailscaleFunnelTunnel.provider.SoundExactly (.new publicUrl binaryPath readyTimeout)
        TailscaleFunnelTunnel.recovers ∧
      FrpTunnel.provider.SoundExactly (.new server publicUrl binaryPath readyTimeout)
        FrpTunnel.recovers ∧
      IrohTunnel.provider.SoundExactly (.new onlineTimeout) fun _ _ => true := by
  refine ⟨?_, ?_, ?_, ?_, ?_⟩
  · exact CloudflareQuickTunnel.characterises.soundExactly (.new rfl ⟨_, rfl⟩ rfl)
  · exact NamedCloudflareTunnel.characterises.soundExactly (.new rfl ⟨_, rfl⟩ rfl)
  · exact TailscaleFunnelTunnel.characterises.soundExactly (.new rfl ⟨_, rfl⟩ rfl)
  · exact FrpTunnel.characterises.soundExactly (.new rfl ⟨_, rfl⟩ rfl)
  · exact IrohTunnel.characterises.soundExactly (.new rfl ⟨_, rfl⟩ rfl)

/-- A quick tunnel started without `cloudflared` stays `Connecting`; a named one whose process was
seen to exit cannot be started again; a funnel whose command is gone cannot be stopped. -/
theorem providers_unsound :
    ¬CloudflareQuickTunnel.provider.SoundThroughout (.new none)
      [(.start 8080, { runs := fun _ _ => false })] ∧
    ¬NamedCloudflareTunnel.provider.SoundThroughout (.new "token" "https://acme.com" none 60)
      [(.start 8080, {}), (.isAlive, { tryWait := .exited })] ∧
    ¬TailscaleFunnelTunnel.provider.SoundThroughout (.new "https://node.tail.ts.net" none 30)
      [(.start 8080, {}), (.stop, { runsAtStop := fun _ _ => false })] := by
  refine ⟨?_, ?_, ?_⟩
  · refine (CloudflareQuickTunnel.characterises.soundExactly ?_ _).not.mpr (by decide)
    exact .new rfl ⟨_, rfl⟩ rfl
  · refine (NamedCloudflareTunnel.characterises.soundExactly ?_ _).not.mpr (by decide)
    exact .new rfl ⟨_, rfl⟩ rfl
  · refine (TailscaleFunnelTunnel.characterises.soundExactly ?_ _).not.mpr (by decide)
    exact .new rfl ⟨_, rfl⟩ rfl

end AgentExchange.Tunnel
