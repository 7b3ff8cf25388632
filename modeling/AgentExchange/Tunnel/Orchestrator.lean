import AgentExchange.Core.Endpoint
import AgentExchange.Tunnel.Recovery

/-!
# The orchestrator

`orchestrator.rs`: several transports behind one list of endpoints. The list is built from what
the starts returned, so it is that of the transports that are up where each start was made on one
that was down and came to what it returned. A start on a transport that is up returns an error,
and the list forgets the transport.
-/
namespace AgentExchange.Tunnel

open Library

variable (dyn : TunnelProvider)

/-- `TransportEntry`; the providers behind the trait object are one provider. -/
structure TransportEntry where
  kind : String
  priority : Int32
  self : dyn.Self

inductive TransportStartOutcome where
  | started (kind url : String) (priority : Int32)
  | failed (kind reason : String)

structure TunnelOrchestrator where
  entries : List (TransportEntry dyn)
  outcomes : List TransportStartOutcome

variable {dyn}

/-- The body of the loop of `start_all`. -/
def TransportEntry.start (e : TransportEntry dyn) (localPort : UInt16) (w : Outcomes) :
    TransportStartOutcome × TransportEntry dyn :=
  let out := dyn.start e.self localPort w
  let entry := { e with self := out.2 }
  match out.1 with
  | .ok () =>
    match dyn.publicUrl out.2 with
    | some url => (.started e.kind url e.priority, entry)
    | none => (.failed e.kind "provider returned no public_url after start", entry)
  | .error err => (.failed e.kind err.display, entry)

/-- The body of the loop of `stop_all`; an error is logged. -/
def TransportEntry.stop (e : TransportEntry dyn) (w : Outcomes) : TransportEntry dyn :=
  { e with self := (dyn.stop e.self w).2 }

/-- A successful start, with the index of its outcome. -/
structure StartedAt where
  idx : ℕ
  kind : String
  url : String
  priority : Int32

def startedAt : TransportStartOutcome × ℕ → Option StartedAt
  | (.started kind url priority, idx) => some ⟨idx, kind, url, priority⟩
  | (.failed _ _, _) => none

/-- The order of the sort keys. -/
def StartedAt.le (a b : StartedAt) : Bool :=
  a.priority < b.priority || (a.priority == b.priority && a.idx ≤ b.idx)

def StartedAt.endpoint (s : StartedAt) : Endpoint :=
  { kind := s.kind, url := s.url, priority := s.priority, healthHintUnix := none, health := none }

namespace TunnelOrchestrator

def new (entries : List (TransportEntry dyn)) : TunnelOrchestrator dyn := ⟨entries, []⟩

def startAll (o : TunnelOrchestrator dyn) (localPort : UInt16) (w : ℕ → Outcomes) :
    TunnelOrchestrator dyn :=
  let results := o.entries.mapIdx fun i e => e.start localPort (w i)
  ⟨results.map Prod.snd, results.map Prod.fst⟩

def stopAll (o : TunnelOrchestrator dyn) (w : ℕ → Outcomes) : TunnelOrchestrator dyn :=
  ⟨o.entries.mapIdx fun i e => e.stop (w i), []⟩

def started (o : TunnelOrchestrator dyn) : List StartedAt :=
  (o.outcomes.zipIdx.filterMap startedAt).mergeSort StartedAt.le

def endpoints (o : TunnelOrchestrator dyn) : List Endpoint := o.started.map StartedAt.endpoint

/-- A call, with what the steps outside come to for each transport. -/
inductive Op where
  | startAll (localPort : UInt16) (w : ℕ → Outcomes)
  | stopAll (w : ℕ → Outcomes)

def next (o : TunnelOrchestrator dyn) : Op → TunnelOrchestrator dyn
  | .startAll localPort w => o.startAll localPort w
  | .stopAll w => o.stopAll w

end TunnelOrchestrator

/-! ## What is live -/

/-- What the trait asks of a provider, with what it means to be running. -/
structure TunnelProvider.Contract (dyn : TunnelProvider) (running : dyn.Self → Bool) : Prop where
  refuses : ∀ t localPort w, running t = true →
    (dyn.start t localPort w).1 = .error .alreadyRunning ∧
      running (dyn.start t localPort w).2 = true ∧
      dyn.publicUrl (dyn.start t localPort w).2 = dyn.publicUrl t
  stops : ∀ t w, running (dyn.stop t w).2 = false

namespace TransportEntry

/-- Running, and reachable under the URL. -/
def Live (running : dyn.Self → Bool) (e : TransportEntry dyn) (url : String) : Prop :=
  running e.self = true ∧ dyn.publicUrl e.self = some url

/-- A start comes to what it returns: running, if there is a URL, after a success, and not live after
a failure. -/
def Comes (running : dyn.Self → Bool) (e : TransportEntry dyn) (localPort : UInt16)
    (w : Outcomes) : Prop :=
  match dyn.start e.self localPort w with
  | (.ok (), t) => dyn.publicUrl t = none ∨ running t = true
  | (.error _, t) => ∀ url, ¬Live running { e with self := t } url

end TransportEntry

namespace TunnelOrchestrator

variable (running : dyn.Self → Bool)

def LiveAt (o : TunnelOrchestrator dyn) (i : ℕ) (e : TransportEntry dyn) (url : String) : Prop :=
  o.entries[i]? = some e ∧ e.Live running url

/-- By priority, then by entry. -/
def Before (o : TunnelOrchestrator dyn) (i j : ℕ) : Prop :=
  ∃ e f, o.entries[i]? = some e ∧ o.entries[j]? = some f ∧
    (e.priority < f.priority ∨ e.priority = f.priority ∧ i < j)

/-- The transports that the endpoints are of. -/
def reported (o : TunnelOrchestrator dyn) : List ℕ := o.started.map StartedAt.idx

/-- The endpoints are those of the live transports, in order and each once. -/
structure ReportsLive (o : TunnelOrchestrator dyn) : Prop where
  sorted : o.reported.Pairwise o.Before
  exactly : ∀ i, i ∈ o.reported ↔ ∃ e url, o.LiveAt running i e url
  urls : List.Forall₂ (fun i endpoint => ∃ e url, o.LiveAt running i e url ∧
    endpoint = { kind := e.kind, url := url, priority := e.priority }) o.reported o.endpoints

/-- A start is made where no transport is live, and every start comes to what it returns. -/
def StartsFromRest (o : TunnelOrchestrator dyn) : Op → Prop
  | .startAll localPort w => ∀ i (e : TransportEntry dyn), o.entries[i]? = some e →
    (∀ url, ¬e.Live running url) ∧ e.Comes running localPort (w i)
  | .stopAll _ => True

/-- An outcome says which transports are live. -/
def Synced (o : TunnelOrchestrator dyn) : Prop :=
  ∀ i kind url priority, o.outcomes[i]? = some (.started kind url priority) ↔
    ∃ e, o.LiveAt running i e url ∧ e.kind = kind ∧ e.priority = priority

end TunnelOrchestrator

/-! ## Sorting -/

theorem StartedAt.le_iff (a b : StartedAt) : a.le b = true ↔
    a.priority < b.priority ∨ a.priority = b.priority ∧ a.idx ≤ b.idx := by
  simp [StartedAt.le]

theorem startedAt_eq_some {x : TransportStartOutcome × ℕ} {s : StartedAt} :
    startedAt x = some s ↔ x = (.started s.kind s.url s.priority, s.idx) := by
  obtain ⟨outcome, idx⟩ := x
  cases outcome with
  | started kind url priority =>
    simp only [startedAt, Option.some_inj, Prod.mk.injEq, TransportStartOutcome.started.injEq]
    constructor
    · rintro rfl
      exact ⟨⟨rfl, rfl, rfl⟩, rfl⟩
    · rintro ⟨⟨rfl, rfl, rfl⟩, rfl⟩
      rfl
  | failed kind reason => simp [startedAt]

namespace TunnelOrchestrator

variable {running : dyn.Self → Bool} {o : TunnelOrchestrator dyn}

theorem mem_started {s : StartedAt} :
    s ∈ o.started ↔ o.outcomes[s.idx]? = some (.started s.kind s.url s.priority) := by
  rw [started, List.mem_mergeSort, List.mem_filterMap]
  simp only [startedAt_eq_some, exists_eq_right, List.mem_zipIdx_iff_getElem?]

/-- The indices of the outcomes differ. -/
theorem nodup_started (o : TunnelOrchestrator dyn) : (o.started.map StartedAt.idx).Nodup := by
  have hperm := (List.mergeSort_perm (o.outcomes.zipIdx.filterMap startedAt)
    StartedAt.le).map StartedAt.idx
  rw [started, hperm.nodup_iff, List.Nodup, List.pairwise_map, List.pairwise_filterMap]
  have hidx : o.outcomes.zipIdx.Pairwise fun x y => x.2 ≠ y.2 := by
    have hrange : (o.outcomes.zipIdx.map Prod.snd).Nodup := by
      rw [List.zipIdx_map_snd]
      exact List.nodup_range'
    exact List.pairwise_map.mp hrange
  apply hidx.imp
  intro x y hxy s hs t ht
  rw [startedAt_eq_some] at hs ht
  subst hs ht
  exact hxy

theorem pairwise_started (o : TunnelOrchestrator dyn) : o.started.Pairwise fun a b =>
    a.priority < b.priority ∨ a.priority = b.priority ∧ a.idx < b.idx := by
  have hle : o.started.Pairwise fun a b => a.le b = true := by
    apply List.pairwise_mergeSort
    · intro a b c hab hbc
      rw [StartedAt.le_iff] at *
      simp only [Int32.lt_iff_toInt_lt, ← Int32.toInt_inj] at *
      omega
    · intro a b
      rw [Bool.or_eq_true, StartedAt.le_iff, StartedAt.le_iff]
      simp only [Int32.lt_iff_toInt_lt, ← Int32.toInt_inj]
      omega
  have hne := List.pairwise_map.mp (nodup_started o)
  apply (hle.and hne).imp
  intro a b hab
  obtain ⟨hle, hne⟩ := hab
  rw [StartedAt.le_iff] at hle
  exact hle.imp_right fun h => ⟨h.1, lt_of_le_of_ne h.2 hne⟩

/-! ## Outcomes and transports -/

theorem Synced.reportsLive (h : o.Synced running) : o.ReportsLive running := by
  have hlive {s : StartedAt} (hs : s ∈ o.started) :
      ∃ e, o.LiveAt running s.idx e s.url ∧ e.kind = s.kind ∧ e.priority = s.priority :=
    (h _ _ _ _).mp (mem_started.mp hs)
  constructor
  · rw [reported, List.pairwise_map]
    apply (pairwise_started o).imp_of_mem
    intro a b ha hb hab
    obtain ⟨e, he, -, hpe⟩ := hlive ha
    obtain ⟨f, hf, -, hpf⟩ := hlive hb
    rw [← hpe, ← hpf] at hab
    exact ⟨e, f, he.1, hf.1, hab⟩
  · intro i
    rw [reported, List.mem_map]
    constructor
    · rintro ⟨s, hs, rfl⟩
      obtain ⟨e, he, -⟩ := hlive hs
      exact ⟨e, s.url, he⟩
    · rintro ⟨e, url, he⟩
      have hstarted := (h i e.kind url e.priority).mpr ⟨e, he, rfl, rfl⟩
      exact ⟨⟨i, e.kind, url, e.priority⟩, mem_started.mpr hstarted, rfl⟩
  · rw [reported, endpoints, List.forall₂_map_left_iff, List.forall₂_map_right_iff,
      List.forall₂_same]
    intro s hs
    obtain ⟨e, he, hkind, hpriority⟩ := hlive hs
    refine ⟨e, s.url, he, ?_⟩
    rw [hkind, hpriority]
    rfl

theorem mem_reported {i : ℕ} :
    i ∈ o.reported ↔ ∃ kind url priority, o.outcomes[i]? = some (.started kind url priority) := by
  rw [reported, List.mem_map]
  constructor
  · rintro ⟨s, hs, rfl⟩
    exact ⟨_, _, _, mem_started.mp hs⟩
  · rintro ⟨kind, url, priority, h⟩
    exact ⟨⟨i, kind, url, priority⟩, mem_started.mpr h, rfl⟩

end TunnelOrchestrator

namespace TransportEntry

variable {running : dyn.Self → Bool} {e : TransportEntry dyn} {localPort : UInt16} {w : Outcomes}

/-- A start fails. -/
theorem start_of_error {err : TunnelError} {t : dyn.Self}
    (h : dyn.start e.self localPort w = (.error err, t)) :
    e.start localPort w = (.failed e.kind err.display, { e with self := t }) := by
  simp only [start, h]

theorem start_of_ok {t : dyn.Self} {url : String}
    (h : dyn.start e.self localPort w = (.ok (), t)) (hurl : dyn.publicUrl t = some url) :
    e.start localPort w = (.started e.kind url e.priority, { e with self := t }) := by
  simp only [start, h, hurl]

theorem start_of_no_url {t : dyn.Self}
    (h : dyn.start e.self localPort w = (.ok (), t)) (hurl : dyn.publicUrl t = none) :
    e.start localPort w =
      (.failed e.kind "provider returned no public_url after start", { e with self := t }) := by
  simp only [start, h, hurl]

/-- What is reported of a start, and whether the transport is live after it. -/
def Agrees (running : dyn.Self → Bool) (out : TransportStartOutcome × TransportEntry dyn) : Prop :=
  ∀ kind url priority, out.1 = .started kind url priority ↔
    out.2.Live running url ∧ out.2.kind = kind ∧ out.2.priority = priority

theorem agrees_failed {kind reason : String} {entry : TransportEntry dyn}
    (h : ∀ url, ¬entry.Live running url) : Agrees running (.failed kind reason, entry) := by
  intro kind' url priority
  simp [h url]

/-- A start that comes to what it returns is reported as it is. -/
theorem Comes.agrees (h : e.Comes running localPort w) : Agrees running (e.start localPort w) := by
  obtain ⟨⟨r, t⟩, hstart⟩ : ∃ out, dyn.start e.self localPort w = out := ⟨_, rfl⟩
  rw [Comes, hstart] at h
  cases r with
  | error err =>
    rw [start_of_error hstart]
    exact agrees_failed h
  | ok =>
    cases hurl : dyn.publicUrl t with
    | none =>
      rw [start_of_no_url hstart hurl]
      apply agrees_failed
      intro url hlive
      cases hurl.symm.trans hlive.2
    | some url =>
      rw [start_of_ok hstart hurl]
      have hrunning : running t = true := h.resolve_left (by simp [hurl])
      intro kind url' priority
      simp only [Live, hrunning, hurl, Option.some_inj, true_and,
        TransportStartOutcome.started.injEq]
      tauto

/-- A start that does not is not. -/
theorem comes_of_agrees (h : Agrees running (e.start localPort w)) :
    e.Comes running localPort w := by
  obtain ⟨⟨r, t⟩, hstart⟩ : ∃ out, dyn.start e.self localPort w = out := ⟨_, rfl⟩
  rw [Comes, hstart]
  cases r with
  | error err =>
    rw [start_of_error hstart] at h
    intro url hlive
    cases (h e.kind url e.priority).mpr ⟨hlive, rfl, rfl⟩
  | ok =>
    cases hurl : dyn.publicUrl t with
    | none => exact .inl hurl
    | some url =>
      rw [start_of_ok hstart hurl] at h
      exact .inr ((h e.kind url e.priority).mp rfl).1.1

/-- A start on a live transport does not come to what it returns: it is refused. -/
theorem Live.not_comes (hc : dyn.Contract running) {url : String} (h : e.Live running url) :
    ¬e.Comes running localPort w := by
  obtain ⟨hresult, hrunning, hurl⟩ := hc.refuses e.self localPort w h.1
  obtain ⟨⟨r, t⟩, hstart⟩ : ∃ out, dyn.start e.self localPort w = out := ⟨_, rfl⟩
  rw [hstart] at hresult hrunning hurl
  cases hresult
  intro hcomes
  rw [Comes, hstart] at hcomes
  exact hcomes url ⟨hrunning, hurl.trans h.2⟩

end TransportEntry

namespace TunnelOrchestrator

variable {running : dyn.Self → Bool} {o : TunnelOrchestrator dyn}

theorem synced_new {entries : List (TransportEntry dyn)} :
    (new entries).Synced running ↔ ∀ e ∈ entries, ∀ url, ¬e.Live running url := by
  constructor
  · intro h e he url hlive
    obtain ⟨i, hi⟩ := List.getElem?_of_mem he
    have hstarted := (h i e.kind url e.priority).mpr ⟨e, ⟨hi, hlive⟩, rfl, rfl⟩
    simp [new] at hstarted
  · intro h i kind url priority
    constructor
    · intro hstarted
      simp [new] at hstarted
    · rintro ⟨e, ⟨hi, hlive⟩, -⟩
      exact absurd hlive (h e (List.mem_of_getElem? hi) url)

theorem synced_stopAll (hc : dyn.Contract running) (o : TunnelOrchestrator dyn)
    (w : ℕ → Outcomes) : (o.stopAll w).Synced running := by
  intro i kind url priority
  constructor
  · intro hstarted
    simp [stopAll] at hstarted
  · rintro ⟨e, ⟨hi, hlive⟩, -⟩
    rw [stopAll, List.getElem?_mapIdx, Option.map_eq_some_iff] at hi
    obtain ⟨before, -, rfl⟩ := hi
    rw [TransportEntry.Live, TransportEntry.stop, hc.stops] at hlive
    cases hlive.1

/-- The outcomes of a run of starts say which transports are live just where each does. -/
theorem synced_startAll_iff {localPort : UInt16} {w : ℕ → Outcomes} :
    (o.startAll localPort w).Synced running ↔ ∀ i (e : TransportEntry dyn),
      o.entries[i]? = some e → TransportEntry.Agrees running (e.start localPort (w i)) := by
  have houtcome (i : ℕ) : (o.startAll localPort w).outcomes[i]? =
      (o.entries[i]?).map fun e => (e.start localPort (w i)).1 := by
    simp only [startAll, List.getElem?_map, List.getElem?_mapIdx, Option.map_map]
    rfl
  have hentry (i : ℕ) : (o.startAll localPort w).entries[i]? =
      (o.entries[i]?).map fun e => (e.start localPort (w i)).2 := by
    simp only [startAll, List.getElem?_map, List.getElem?_mapIdx, Option.map_map]
    rfl
  have hlive (i : ℕ) (e : TransportEntry dyn) (he : o.entries[i]? = some e) :
      (∀ kind url priority,
        (o.startAll localPort w).outcomes[i]? = some (.started kind url priority) ↔
          ∃ e, (o.startAll localPort w).LiveAt running i e url ∧ e.kind = kind ∧
            e.priority = priority) ↔ TransportEntry.Agrees running (e.start localPort (w i)) := by
    simp only [houtcome, LiveAt, hentry, he, Option.map_some, Option.some_inj, and_assoc,
      exists_eq_left', TransportEntry.Agrees]
  constructor
  · intro h i e he
    exact (hlive i e he).mp (h i)
  · intro h i
    cases he : o.entries[i]? with
    | none => simp [houtcome, LiveAt, hentry, he]
    | some e => exact (hlive i e he).mpr (h i e he)

/-- A call keeps the outcomes in step with the transports just where it starts them from rest. -/
theorem synced_next_iff (hc : dyn.Contract running) (op : Op) :
    (o.next op).Synced running ↔ o.StartsFromRest running op := by
  cases op with
  | stopAll w => exact iff_of_true (synced_stopAll hc o w) trivial
  | startAll localPort w =>
    change (o.startAll localPort w).Synced running ↔ _
    rw [synced_startAll_iff]
    constructor
    · intro h i e he
      have hcomes := TransportEntry.comes_of_agrees (h i e he)
      exact ⟨fun url hlive => hlive.not_comes hc hcomes, hcomes⟩
    · intro h i e he
      exact (h i e he).2.agrees

/-- What is reported of a transport is what is live. -/
theorem ReportsLive.started (h : o.ReportsLive running) {s : StartedAt} (hs : s ∈ o.started) :
    ∃ e, o.LiveAt running s.idx e s.url ∧ e.kind = s.kind ∧ e.priority = s.priority := by
  have hall := h.urls
  rw [reported, endpoints, List.forall₂_map_left_iff, List.forall₂_map_right_iff,
    List.forall₂_same] at hall
  obtain ⟨e, url, he, hendpoint⟩ := hall s hs
  simp only [StartedAt.endpoint, Endpoint.mk.injEq, and_true] at hendpoint
  obtain ⟨hkind, hurl, hpriority⟩ := hendpoint
  subst hurl
  exact ⟨e, he, hkind.symm, hpriority.symm⟩

/-- The endpoints are those of the live transports just where the outcomes are in step with them. -/
theorem reportsLive_iff : o.ReportsLive running ↔ o.Synced running := by
  constructor
  · intro h i kind url priority
    constructor
    · intro hstarted
      exact h.started (s := ⟨i, kind, url, priority⟩) (mem_started.mpr hstarted)
    · rintro ⟨e, he, rfl, rfl⟩
      obtain ⟨kind, url', priority, hstarted⟩ :=
        mem_reported.mp ((h.exactly i).mpr ⟨e, url, he⟩)
      obtain ⟨f, hf, hkind, hpriority⟩ :=
        h.started (s := ⟨i, kind, url', priority⟩) (mem_started.mpr hstarted)
      cases he.1.symm.trans hf.1
      cases he.2.2.symm.trans hf.2.2
      cases hkind
      cases hpriority
      exact hstarted
  · exact Synced.reportsLive

/-- After every call of a run the endpoints are those of the live transports just where the
transports are down at first and every start is made from rest. -/
theorem endpoints_live_iff (running : dyn.Self → Bool) (hc : dyn.Contract running)
    (entries : List (TransportEntry dyn)) (ops : List Op) :
    (∀ done, done <+: ops → (Machine.run next (new entries) done).ReportsLive running) ↔
      (∀ e ∈ entries, ∀ url, ¬e.Live running url) ∧
        Machine.Along next (fun o op => o.StartsFromRest running op) (new entries) ops := by
  have hruns (hinit : (new entries).Synced running) :
      (∀ done, done <+: ops → (Machine.run next (new entries) done).ReportsLive running) ↔
        Machine.Along next (fun o op => o.StartsFromRest running op) (new entries) ops := by
    apply Machine.everywhere_iff_along (H := fun _ _ => True) (I := fun o => o.Synced running)
    · exact Machine.along_true _ _
    · exact hinit
    · exact fun o ho => reportsLive_iff.mpr ho
    · exact fun o op _ _ hop => (synced_next_iff hc op).mpr hop
    · intro o op _ _ hop hreports
      exact hop ((synced_next_iff hc op).mp (reportsLive_iff.mp hreports))
  rw [← synced_new]
  constructor
  · intro h
    have hinit := reportsLive_iff.mp (h [] (List.nil_prefix))
    exact ⟨hinit, (hruns hinit).mp h⟩
  · intro h
    exact (hruns h.1).mpr h.2

namespace Sample

/-- The transport of a data plane that is reached over Iroh only. -/
def iroh : TransportEntry IrohTunnel.provider := ⟨"iroh", 1, IrohTunnel.new 10⟩

def online : ℕ → Outcomes := fun _ => { endpointId := "abc" }

theorem contract : IrohTunnel.provider.Contract IrohTunnel.running where
  refuses t localPort w h := by
    have hstart : IrohTunnel.provider.start t localPort w = (.error .alreadyRunning, t) := by
      simp only [IrohTunnel.provider, IrohTunnel.start]
      exact if_pos h
    rw [hstart]
    exact ⟨rfl, h, rfl⟩
  stops _ _ := rfl

theorem not_live (url : String) : ¬iroh.Live IrohTunnel.running url := by
  rintro ⟨hrunning, -⟩
  cases hrunning

end Sample

theorem endpoints_live_iff_iroh :
    (Machine.run next (new [Sample.iroh]) [.startAll 8080 Sample.online]).ReportsLive
      IrohTunnel.running := by
  refine (endpoints_live_iff IrohTunnel.running Sample.contract [Sample.iroh]
    [.startAll 8080 Sample.online]).mpr ⟨?_, ?_, trivial⟩ _ (List.prefix_refl _)
  · intro e he url
    rw [List.mem_singleton.mp he]
    exact Sample.not_live url
  · intro i e he
    obtain ⟨rfl, rfl⟩ : i = 0 ∧ Sample.iroh = e := by
      cases i with
      | zero => exact ⟨rfl, Option.some_inj.mp he⟩
      | succ i => cases he
    exact ⟨Sample.not_live, .inr rfl⟩

/-- Started twice, a transport that is up is no longer among the endpoints. -/
theorem endpoints_forget_live :
    IrohTunnel.provider.Contract IrohTunnel.running ∧
      let ops := [Op.startAll 8080 Sample.online, Op.startAll 8080 Sample.online]
      (Machine.run next (new [Sample.iroh]) ops).endpoints = [] ∧
        (∃ e, (Machine.run next (new [Sample.iroh]) ops).LiveAt IrohTunnel.running 0 e
          "iroh:abc") ∧
        ¬(Machine.run next (new [Sample.iroh]) ops).ReportsLive IrohTunnel.running := by
  have hlive : ∃ e, (Machine.run next (new [Sample.iroh]) [Op.startAll 8080 Sample.online,
      Op.startAll 8080 Sample.online]).LiveAt IrohTunnel.running 0 e "iroh:abc" :=
    ⟨_, rfl, rfl, by decide +kernel⟩
  refine ⟨Sample.contract, by decide +kernel, hlive, ?_⟩
  intro h
  obtain ⟨e, he⟩ := hlive
  have hmem := (h.exactly 0).mpr ⟨e, _, he⟩
  have hnone : (Machine.run next (new [Sample.iroh]) [Op.startAll 8080 Sample.online,
      Op.startAll 8080 Sample.online]).reported = [] := by decide +kernel
  rw [hnone] at hmem
  cases hmem

end TunnelOrchestrator

end AgentExchange.Tunnel
