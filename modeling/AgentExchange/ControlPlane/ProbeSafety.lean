import AgentExchange.ControlPlane.Probing

/-!
# Whom the server connects to

Nothing on the way of a probe looks at an address, so a probe connects wherever its URL,
the answers of lookups and the redirects lead. A run in which these lead outside opens no
connection to a forbidden address; one request for `https://127.0.0.1` opens one, and its
signature is not even looked at before.
-/
namespace AgentExchange.ControlPlane

open Library
open Net (isForbiddenIp)

/-- The host of the URL is not the literal of a forbidden address. -/
def outside (u : Net.Url) : Bool := u.literal.all fun ip => !isForbiddenIp ip

/-- Probing the URL does not name a forbidden address. -/
def namedOutside (crates : Net.Crates) (url : String) : Bool :=
  match crates.parse (healthzUrl url) with
  | .ok u => outside u
  | .error _ => true

/-- The answer leads to no forbidden address. -/
def leadsOutside : (op : Net.Op) → op.Answer → Bool
  | .lookupIp _, .ok ips => ips.all fun ip => !isForbiddenIp ip
  | .exchange _, .ok response => response.location.all outside
  | _, _ => true

/-- Neither a request nor an answer of the network leads to a forbidden address. -/
def staysOutside (crates : Net.Crates) (p : WireWorld) : WireLabel → Bool
  | .spawn r => r.urls.all (namedOutside crates)
  | .step i c =>
    match p.pending i with
    | some (.inr op) => leadsOutside op (c.network op)
    | _ => true
  | _ => true

/-- The address the operation connected to, if it opened a connection. -/
def connectedTo (e : Entry wire State Request) : Option Net.SocketAddr :=
  match e.event.op with
  | .inr (.connect addr) => some addr
  | _ => none

section Safety

variable {env : Env} {crates : Net.Crates}

/-- An operation that took in nothing forbidden and opened no forbidden connection. -/
structure KeptOutside (crates : Net.Crates) (e : Entry wire State Request) : Prop where
  loaded : ∀ rows, e.event = Event.inl (Loads rows) → ∀ row ∈ rows, ∀ ep ∈ row.2,
    namedOutside crates ep.url = true
  answer : ∀ a, e.event = Event.inr a → leadsOutside a.op a.answer = true
  connection : ∀ addr, connectedTo e = some addr → isForbiddenIp addr.ip = false

/-- Everything the server has been told to probe is outside, and so is what it connected to. -/
structure Outside (env : Env) (crates : Net.Crates) (p : WireWorld) : Prop where
  conforms : Pool.Conforms (wireSemantics env crates) p
  requests : ∀ t ∈ p.tasks, t.request.urls.all (namedOutside crates) = true
  rows : ∀ row ∈ p.shared.db.transfers, ∀ ep ∈ row.reachableAt, namedOutside crates ep.url = true
  trace : ∀ e ∈ p.trace, KeptOutside crates e

theorem TableStep.endpoints {now : Timestamp} {rows rows' : List TransferRow} {op : Op}
    {answer : op.Answer} (h : TableStep now rows op answer rows') {urls : String → Prop}
    (hop : op.Names urls) (hrows : ∀ row ∈ rows, ∀ ep ∈ row.reachableAt, urls ep.url) :
    ∀ row ∈ rows', ∀ ep ∈ row.reachableAt, urls ep.url := by
  cases h with
  | quiet _ => exact hrows
  | failed _ => exact hrows
  | insert t _ =>
    intro row hrow
    rcases List.mem_append.mp hrow with hrow | hrow
    · exact hrows row hrow
    · rw [List.mem_singleton.mp hrow]
      exact hop
  | accept transferId =>
    intro row hrow
    obtain ⟨old, hold, rfl⟩ := List.mem_map.mp hrow
    have := hrows old hold
    unfold acceptRow
    split_ifs <;> exact this
  | deliver transferId =>
    intro row hrow
    obtain ⟨old, hold, rfl⟩ := List.mem_map.mp hrow
    have := hrows old hold
    unfold deliverRow
    split_ifs <;> exact this
  | persist transferId endpoints _ =>
    intro row hrow
    obtain ⟨old, hold, rfl⟩ := List.mem_map.mp hrow
    unfold persistRow
    split_ifs
    · exact hop
    · exact hrows old hold

theorem mem_loadInFlightTransfers {db : Db} {row : String × List Endpoint}
    (h : row ∈ db.loadInFlightTransfers) : ∃ t ∈ db.transfers, row = (t.transferId, t.reachableAt) := by
  obtain ⟨t, ht, rfl⟩ := List.mem_map.mp h
  have hmem := (List.mem_insertionSort _).mp (List.mem_of_mem_take ht)
  exact ⟨t, (List.mem_filter.mp hmem).1, rfl⟩

theorem loaded_of_exec {s : State} {op : Op} {c : Choice} {rows : List (String × List Endpoint)}
    (h : (⟨.inl op, (exec env s op c).1⟩ : Event wire) = Event.inl (Loads rows)) :
    rows = s.db.loadInFlightTransfers := by
  cases op with
  | loadInFlightTransfers =>
    have hread : State.read c s.db.loadInFlightTransfers = .ok rows := by
      injection h
    exact (State.read_eq_ok hread).symm
  | _ => cases h

/-- The URLs a probe requests name no forbidden address. -/
theorem requested_outside {u v : Net.Url} {own : List (Event Net.effects)}
    (hu : outside u = true) (hown : ∀ a ∈ own, leadsOutside a.op a.answer = true)
    (h : Net.Requested probeClient u own v) : outside v = true := by
  rcases h with rfl | ⟨-, w, response, hmem, hlocation⟩
  · exact hu
  · simpa [leadsOutside, hlocation] using hown _ hmem

theorem destination_outside {v : Net.Url} {own : List (Event Net.effects)} {addr : Net.SocketAddr}
    (hv : outside v = true) (hown : ∀ a ∈ own, leadsOutside a.op a.answer = true)
    (h : Net.Destination probeClient v own addr) : isForbiddenIp addr.ip = false := by
  have hpins : (v.hostStr.bind fun host => probeClient.pins.lookup host) = none := by
    cases v.hostStr <;> rfl
  simp only [Net.Destination, hpins] at h
  cases hliteral : v.literal with
  | some ip =>
    simp only [hliteral] at h
    simpa [outside, hliteral, h] using hv
  | none =>
    simp only [hliteral] at h
    obtain ⟨host, ips, -, hlookup, hip⟩ := h
    have hips := hown _ hlookup
    simp only [leadsOutside, List.all_eq_true, Bool.not_eq_true'] at hips
    exact hips addr.ip hip

/-- What a task may probe is outside. -/
theorem Outside.supplied {p : WireWorld} (hp : Outside env crates p) {i : ℕ}
    {t : Library.Task wire Request ApiError Response} (hi : p.tasks[i]? = some t) {url : String}
    (h : WireSupplied t.request (Pool.eventsOf p.trace i) url) : namedOutside crates url = true := by
  rcases h with hurl | ⟨rows, hrows, row, hrow, ep, hep, rfl⟩
  · exact List.all_eq_true.mp (hp.requests t (List.mem_of_getElem? hi)) url hurl
  · obtain ⟨e, he, -, hevent⟩ := Pool.mem_eventsOf.mp hrows
    exact (hp.trace e he).loaded rows hevent row hrow ep hep

/-- A task in the place of another one for the same request. -/
theorem Outside.set {p : WireWorld} (hp : Outside env crates p) {i : ℕ}
    {t t' : Library.Task wire Request ApiError Response} (hi : p.tasks[i]? = some t)
    (ht' : t'.request = t.request) : ∀ u ∈ p.tasks.set i t', u.request.urls.all (namedOutside crates) = true := by
  intro u hu
  rcases List.mem_or_eq_of_mem_set hu with hu | rfl
  · exact hp.requests u hu
  · rw [ht']
    exact hp.requests t (List.mem_of_getElem? hi)

theorem Outside.step (hcrates : crates.Honours)
    (hproxies : ∀ addr ∈ crates.proxies, isForbiddenIp addr.ip = false) {p p' : WireWorld}
    {l : WireLabel} (hp : Outside env crates p) (hl : staysOutside crates p l = true)
    (h : Pool.Step (wireSemantics env crates) p l p') : Outside env crates p' := by
  have hconforms := hp.conforms.step _ h
  cases h with
  | spawn r =>
    refine ⟨hconforms, ?_, hp.rows, hp.trace⟩
    exact List.forall_mem_append.mpr ⟨hp.requests, List.forall_mem_singleton.mpr hl⟩
  | cancel hi => exact ⟨hconforms, hp.set hi rfl, hp.rows, hp.trace⟩
  | environment t => exact ⟨hconforms, hp.requests, hp.rows, hp.trace⟩
  | idle => exact hp
  | @perform i c r op k hi =>
    have hpre := hp.conforms.pending_spec (wire_handler_spec hcrates) hi
    have hsupplied {url : String} := @Outside.supplied _ _ _ hp _ _ hi url
    cases op with
    | inl op =>
      have hnames : op.Names fun url => namedOutside crates url = true := Op.Names.mono hpre fun url => hsupplied
      refine ⟨hconforms, hp.set hi rfl, ?_, ?_⟩
      · exact (exec_tableStep env p.shared op c.plane).endpoints hnames hp.rows
      · refine List.forall_mem_append.mpr ⟨hp.trace, List.forall_mem_singleton.mpr ⟨?_, ?_, ?_⟩⟩
        · intro rows hrows row hrow ep hep
          rw [loaded_of_exec hrows] at hrow
          obtain ⟨t, ht, rfl⟩ := mem_loadInFlightTransfers hrow
          exact hp.rows t ht ep hep
        · intro a ha
          cases ha
        · intro addr haddr
          cases haddr
    | inr op =>
      refine ⟨hconforms, hp.set hi rfl, hp.rows, ?_⟩
      refine List.forall_mem_append.mpr ⟨hp.trace, List.forall_mem_singleton.mpr ⟨?_, ?_, ?_⟩⟩
      · intro rows hrows
        cases hrows
      · intro a ha
        have ha' : Event.inr ⟨op, c.network op⟩ = Event.inr a := ha
        rw [← Event.inr_injective ha']
        simpa [staysOutside, Pool.pending_eq_some hi] using hl
      · cases op with
        | connect addr =>
          obtain ⟨url, u, own, hurl, hparse, hown, hdocumented⟩ := hpre
          have hu : outside u = true := by simpa [namedOutside, hparse] using hsupplied hurl
          have hanswers : ∀ a ∈ own, leadsOutside a.op a.answer = true := by
            intro a ha
            obtain ⟨e, he, -, hevent⟩ := Pool.mem_eventsOf.mp (hown a ha)
            exact (hp.trace e he).answer a hevent
          rintro _ ⟨⟩
          rcases hdocumented with ⟨v, hv, hdestination⟩ | ⟨-, hproxy⟩
          · exact destination_outside (requested_outside hu hanswers hv) hanswers hdestination
          · exact hproxies addr hproxy
        | _ =>
          intro addr haddr
          cases haddr

/-- While all URLs and answers lead outside, the server opens no connection to a forbidden
address. -/
theorem probes_outside_of_staysOutside (env : Env) {crates : Net.Crates}
    (hcrates : crates.Honours)
    (hproxies : ∀ addr ∈ crates.proxies, isForbiddenIp addr.ip = false) (labels : List WireLabel)
    (h : Pool.Along (wireSemantics env crates) {} (fun p l => staysOutside crates p l = true)
      labels) :
    ∀ addr ∈ (runWire env crates labels).trace.filterMap connectedTo,
      isForbiddenIp addr.ip = false := by
  have houtside : Outside env crates (runWire env crates labels) := by
    apply Pool.run_induction _ ?_ (fun p l p' hp hl hstep => hp.step hcrates hproxies hl hstep)
      labels h
    exact ⟨Pool.run_conforms (wireSemantics env crates) ({} : State) [], by simp, by simp, by simp⟩
  intro addr haddr
  obtain ⟨e, he, hconnected⟩ := List.mem_filterMap.mp haddr
  exact (houtside.trace e he).connection addr hconnected

end Safety

/-! ## Two probes

Alice registers and announces a tunnel: once one at Cloudflare, once `https://127.0.0.1`. -/
namespace Sample

def probed (host : String) (literal : Option Net.IpAddr) : Net.Url where
  text := "https://" ++ host ++ "/healthz"
  scheme := "https"
  hostStr := some host
  literal := literal
  portOrKnownDefault := some 443

def loopback : Net.IpAddr := .v4 ⟨127, 0, 0, 1⟩

def edge : Net.IpAddr := .v4 ⟨104, 16, 230, 132⟩

def probeUrls : List Net.Url := [probed "x.trycloudflare.com" none, probed "127.0.0.1" loopback]

def probeCrates : Net.Crates :=
  Net.plainCrates fun s => (probeUrls.find? fun u => u.text = s).elim (.error "invalid URL") .ok

/-- Every name has the same address, and every server is healthy. -/
def network : (op : Net.Op) → op.Answer
  | .lookupIp _ => .ok [edge]
  | .connect _ => .ok ()
  | .exchange _ => .ok { status := 200, statusText := "200 OK" }
  | .expired => none

/-- A request and its first `n` operations, as task `i`. -/
def serveWire (i : ℕ) (request : Request) (n : ℕ) : List WireLabel :=
  .spawn request :: List.replicate n (.step i ⟨{ bytes := List.replicate 16 0x01 }, network⟩)

/-- Alice registers, and then asks for a transfer through the tunnel. -/
def announces (tunnelUrl : String) (n : ℕ) : List WireLabel :=
  .environment ⟨1700000000000000, 1700000000000000⟩ ::
    (serveWire 0 (.register registerAlice) 3 ++
      serveWire 1 (.createTransfer { tunnelRequest with tunnelUrl := some tunnelUrl }) n)

def internalProbe : List WireLabel := announces "https://127.0.0.1" 5

end Sample

theorem probes_outside_of_staysOutside_tunnel :
    ((runWire Sample.env Sample.probeCrates
      (Sample.announces "https://x.trycloudflare.com" 12)).trace.filterMap connectedTo) =
        [⟨Sample.edge, 443⟩] ∧
      ∀ addr ∈ (runWire Sample.env Sample.probeCrates
        (Sample.announces "https://x.trycloudflare.com" 12)).trace.filterMap connectedTo,
          isForbiddenIp addr.ip = false := by
  have hrun : Pool.AlongTo (wireSemantics Sample.env Sample.probeCrates)
      (fun p l => staysOutside Sample.probeCrates p l = true)
      (fun p => p.trace.filterMap connectedTo = [⟨Sample.edge, 443⟩])
      ⟨{}, [], []⟩ (Sample.announces "https://x.trycloudflare.com" 12) := by
    rw [Sample.env_eq]
    decide +kernel
  have hcrates : Sample.probeCrates.Honours := Net.plainCrates_honours
  exact ⟨hrun.along.2, probes_outside_of_staysOutside _ hcrates (fun addr haddr => by cases haddr)
    _ hrun.along.1⟩

/-- The server connects to itself before it has looked at the signature. -/
theorem loopback_probed :
    Sample.probeCrates.Honours ∧ Sample.probeCrates.proxies = [] ∧
      (runWire Sample.env Sample.probeCrates Sample.internalProbe).trace.filterMap connectedTo =
        [⟨Sample.loopback, 443⟩] ∧
      isForbiddenIp Sample.loopback = true := by
  refine ⟨Net.plainCrates_honours, rfl, ?_, rfl⟩
  rw [Sample.env_eq]
  decide +kernel

end AgentExchange.ControlPlane
