import AgentExchange.ControlPlane.KeyLedger

/-!
# The directory and the ledger

A registration writes `agents` and `agent_keys` in one transaction, a rotation
writes `agent_keys` only, and lookups read `agents`. So the two tables agree as
long as no rotation brings in a key other than the registered one; and since keys
are told apart by their text for one agent in one table and by their bytes in the
other, a key enters the ledger once as long as no request names it in another
spelling or for another agent.
-/
namespace AgentExchange.ControlPlane

open Library Wire

/-! ## What registrations and rotations write -/

/-- The two transactions on the ledger write what their request says. -/
def WritesOwn (env : Env) (r : Request) : Op → Prop
  | .insertAgent agentId publicKey fingerprint org name => ∃ req, r = .register req ∧
      hexDecode req.publicKeyHex = .ok publicKey ∧ publicKey.length = publicKeyLen ∧
      fingerprint = computeFingerprint env publicKey ∧
      agentId = "spize:" ++ req.org ++ "/" ++ req.name ++ ":" ++ fingerprint ∧
      org = req.org ∧ name = req.name
  | .insertRotation agentId _ newHex newKey _ => ∃ req, r = .rotateKey req ∧
      agentId = req.agentId ∧ newHex = req.newPublicKeyHex ∧
      hexDecode req.newPublicKeyHex = .ok newKey ∧ newKey.length = publicKeyLen
  | _ => True

/-- What the answer to a registration, a rotation or a lookup rests on. -/
def RestsOn (r : Request) (past : History) (out : Except ApiError Response) : Prop :=
  ∀ response, out = .ok response →
    match r with
    | .register req => ∃ publicKey agentId fingerprint row,
        hexDecode req.publicKeyHex = .ok publicKey ∧
        Saw past (.insertAgent agentId publicKey fingerprint req.org req.name) (.ok row)
    | .rotateKey req => ∃ newKey expectedHex now row,
        hexDecode req.newPublicKeyHex = .ok newKey ∧
        Saw past (.insertRotation req.agentId expectedHex req.newPublicKeyHex newKey now) (.ok row)
    | .getAgent agentId => ∃ row, Saw past (.findAgent agentId) (.ok (some row)) ∧
        response = .agent 200 (.ofRow row)
    | _ => True

theorem length_of_decodeHexExact {s field : String} {expected : ℕ} {bytes : Bytes}
    (h : decodeHexExact s expected field = .ok bytes) : bytes.length = expected := by
  unfold decodeHexExact at h
  split at h
  · cases h
  · split_ifs at h with hlength
    cases h
    simpa using hlength

section Requests

variable {env : Env}

theorem register_writes (req : RegisterRequest) :
    (handler env (.register req)).Spec (fun _ => WritesOwn env (.register req))
      (RestsOn (.register req)) [] := by
  have herr : ∀ past e, RestsOn (.register req) past (.error e) := by
    rintro past e response ⟨⟩
  refine Program.spec_bind.mpr ?_
  unfold register
  rw [Program.spec_lift_bind]
  refine ⟨fun _ _ => ?_, fun _ _ => herr _ _⟩
  rw [Program.spec_lift_bind]
  refine ⟨fun _ _ => ?_, fun _ _ => herr _ _⟩
  refine spec_checkNonce_bind (fun _ => herr _ _) ?_
  rw [Program.spec_lift_bind]
  refine ⟨fun publicKey hkey => ?_, fun _ _ => herr _ _⟩
  rw [Program.spec_lift_bind]
  refine ⟨fun signature _ => ?_, fun _ _ => herr _ _⟩
  refine spec_checkSkew_bind_exact trivial (fun _ _ => herr _ _) fun t _ => ?_
  refine spec_mapError_bind (fun _ => herr _ _) fun challenge _ => ?_
  refine spec_mapError_bind (fun _ => herr _ _) fun _ _ => ?_
  rw [Program.spec_ensure_bind]
  refine ⟨fun _ => ?_, fun _ => herr _ _⟩
  rw [Program.spec_call_bind]
  refine ⟨trivial, fun fresh => ?_⟩
  refine spec_mapError_bind (fun _ => herr _ _) fun _ _ => ?_
  rw [Program.spec_ensure_bind]
  refine ⟨fun _ => ?_, fun _ => herr _ _⟩
  have hdecoded := hexDecode_of_decodeHexExact hkey
  rw [Program.spec_call_bind]
  refine ⟨⟨req, rfl, hdecoded, length_of_decodeHexExact hkey, rfl, rfl, rfl, rfl⟩,
    fun inserted => ?_⟩
  cases inserted with
  | error e => exact herr _ _
  | ok row =>
    rintro response -
    exact ⟨publicKey, _, _, row, hdecoded, saw_snoc _ _ _⟩

theorem rotateKey_writes (req : RotateKeyRequest) :
    (handler env (.rotateKey req)).Spec (fun _ => WritesOwn env (.rotateKey req))
      (RestsOn (.rotateKey req)) [] := by
  have herr : ∀ past e, RestsOn (.rotateKey req) past (.error e) := by
    rintro past e response ⟨⟩
  refine Program.spec_bind.mpr ?_
  unfold rotateKey
  refine spec_mapError_bind (fun _ => herr _ _) fun agent hagent => ?_
  obtain rfl := AgentId.eq_of_new hagent
  refine spec_checkNonce_bind (fun _ => herr _ _) ?_
  rw [Program.spec_lift_bind]
  refine ⟨fun newPublicKey hkey => ?_, fun _ _ => herr _ _⟩
  rw [Program.spec_lift_bind]
  refine ⟨fun signature _ => ?_, fun _ _ => herr _ _⟩
  refine spec_checkSkew_bind_exact trivial (fun _ _ => herr _ _) fun t _ => ?_
  rw [Program.spec_call_bind]
  refine ⟨trivial, fun found => ?_⟩
  refine spec_mapError_bind (fun _ => herr _ _) fun found' _ => ?_
  rw [Program.spec_okOr_bind]
  refine ⟨fun current _ => ?_, fun _ => herr _ _⟩
  rw [Program.spec_ensure_bind]
  refine ⟨fun _ => ?_, fun _ => herr _ _⟩
  refine spec_mapError_bind (fun _ => herr _ _) fun challenge _ => ?_
  rw [Program.spec_ensure_bind]
  refine ⟨fun _ => ?_, fun _ => herr _ _⟩
  refine spec_mapError_bind (fun _ => herr _ _) fun _ _ => ?_
  rw [Program.spec_ensure_bind]
  refine ⟨fun _ => ?_, fun _ => herr _ _⟩
  refine spec_mapError_bind (fun _ => herr _ _) fun _ _ => ?_
  rw [Program.spec_call_bind]
  refine ⟨trivial, fun fresh => ?_⟩
  refine spec_mapError_bind (fun _ => herr _ _) fun _ _ => ?_
  rw [Program.spec_ensure_bind]
  refine ⟨fun _ => ?_, fun _ => herr _ _⟩
  rw [Program.spec_call_bind]
  refine ⟨trivial, fun now => ?_⟩
  have hdecoded := hexDecode_of_decodeHexExact hkey
  rw [Program.spec_call_bind]
  refine ⟨⟨req, rfl, rfl, rfl, hdecoded, length_of_decodeHexExact hkey⟩, fun inserted => ?_⟩
  cases inserted with
  | error e => exact herr _ _
  | ok row =>
    rintro response -
    exact ⟨newPublicKey, _, now, row, hdecoded, saw_snoc _ _ _⟩

theorem getAgent_reads (agentId : String) :
    (handler env (.getAgent agentId)).Spec (fun _ => WritesOwn env (.getAgent agentId))
      (RestsOn (.getAgent agentId)) [] := by
  have herr : ∀ past e, RestsOn (.getAgent agentId) past (.error e) := by
    rintro past e response ⟨⟩
  refine Program.spec_bind.mpr ?_
  unfold getAgent
  refine spec_mapError_bind (fun _ => herr _ _) fun agent hagent => ?_
  obtain rfl := AgentId.eq_of_new hagent
  rw [Program.spec_call_bind]
  refine ⟨trivial, fun found => ?_⟩
  refine spec_mapError_bind (fun _ => herr _ _) fun found' hfound => ?_
  subst hfound
  rw [Program.spec_okOr_bind]
  refine ⟨fun row hrow => ?_, fun _ => herr _ _⟩
  subst hrow
  rintro response ⟨⟩
  exact ⟨row, saw_snoc _ _ _, rfl⟩

/-- No other request writes the ledger. -/
theorem writesOwn_of_permits {r : Request} {past : History} {op : Op} (h : permits env r past op)
    (hregister : ∀ req, r ≠ .register req) (hrotate : ∀ req, r ≠ .rotateKey req) :
    WritesOwn env r op := by
  cases op with
  | insertAgent _ _ _ _ _ =>
    obtain ⟨req, hr⟩ := h
    exact absurd hr (hregister req)
  | insertRotation _ _ _ _ _ =>
    obtain ⟨req, hr, -⟩ := h
    exact absurd hr (hrotate req)
  | _ => trivial

theorem handler_writes (env : Env) (r : Request) :
    ((semantics env).handler r).Spec (fun _ => WritesOwn env r) (RestsOn r) [] := by
  have hother (hregister : ∀ req, r ≠ .register req) (hrotate : ∀ req, r ≠ .rotateKey req)
      (hget : ∀ agentId, r ≠ .getAgent agentId) :
      ((semantics env).handler r).Spec (fun _ => WritesOwn env r) (RestsOn r) [] := by
    refine (handler_spec env r).mono (fun _ _ h => writesOwn_of_permits h hregister hrotate) ?_
    intro past out _ response _
    cases r with
    | register req => exact absurd rfl (hregister req)
    | rotateKey req => exact absurd rfl (hrotate req)
    | getAgent agentId => exact absurd rfl (hget agentId)
    | _ => trivial
  cases r with
  | register req => exact register_writes req
  | rotateKey req => exact rotateKey_writes req
  | getAgent agentId => exact getAgent_reads agentId
  | _ => exact hother (by simp) (by simp) (by simp)

end Requests

/-! ## The directory -/

/-- The rotation, if the operation is one, brings in the agent's registered key. -/
def rotatesToRegistered (db : Db) : Op → Bool
  | .insertRotation agentId _ _ newKey _ =>
    db.agents.all fun row => row.agentId ≠ agentId || row.publicKey = newKey
  | _ => true

def RotatesToRegistered (w : World) (l : Label) : Prop :=
  w.performs (fun _ s => rotatesToRegistered s.db) l = true

instance (w : World) (l : Label) : Decidable (RotatesToRegistered w l) :=
  inferInstanceAs (Decidable (_ = true))

/-- Every key of an agent is the registered one, which has the fingerprint of the row. -/
structure Agreeing (env : Env) (db : Db) : Prop where
  keys : ∀ row ∈ db.agents, ∀ key ∈ db.agentKeys, key.agentId = row.agentId →
    key.publicKey = row.publicKey
  fingerprints : ∀ row ∈ db.agents, row.fingerprint = computeFingerprint env row.publicKey

theorem closeKey_agentId (agentId expectedHex : String) (until_ : Timestamp) (row : AgentKeyRow) :
    (Db.closeKey agentId expectedHex until_ row).agentId = row.agentId := by
  unfold Db.closeKey
  split_ifs <;> rfl

theorem closeKey_publicKey (agentId expectedHex : String) (until_ : Timestamp)
    (row : AgentKeyRow) : (Db.closeKey agentId expectedHex until_ row).publicKey = row.publicKey := by
  unfold Db.closeKey
  split_ifs <;> rfl

theorem KeyLedger.exists_agent {db : Db} (h : KeyLedger db) {key : AgentKeyRow}
    (hkey : key ∈ db.agentKeys) : ∃ row ∈ db.agents, row.agentId = key.agentId := by
  have hne : db.keysOf key.agentId ≠ [] := by
    apply List.ne_nil_of_mem (a := key)
    simpa [Db.keysOf] using hkey
  exact List.mem_map.mp ((h.registered key.agentId).mp hne)

/-- A registered agent has a current key. -/
theorem KeyLedger.currentKey_eq_some {db : Db} (h : KeyLedger db) {row : AgentRow}
    (hrow : row ∈ db.agents) :
    ∃ key ∈ db.agentKeys, db.currentKey row.agentId = some key ∧ key.agentId = row.agentId := by
  have hcount : 0 < db.agentKeys.countP fun r => r.agentId = row.agentId && r.validTo = none := by
    rw [h.count_open hrow]
    exact Nat.one_pos
  have hfound : (db.currentKey row.agentId).isSome = true := by
    rw [Db.currentKey, List.find?_isSome]
    obtain ⟨key, hkey, hopen⟩ := List.countP_pos_iff.mp hcount
    exact ⟨key, hkey, by simpa using hopen⟩
  obtain ⟨key, hkey⟩ := Option.isSome_iff_exists.mp hfound
  have hprops : key.agentId = row.agentId ∧ key.validTo = none := by
    simpa using List.find?_some hkey
  exact ⟨key, List.mem_of_find?_eq_some hkey, hkey, hprops.1⟩

theorem Agreeing.insertAgent {env : Env} {db db' : Db} (h : Agreeing env db) (hledger : KeyLedger db)
    {now : Timestamp} {agentId fingerprint org name : String} {publicKey : Bytes} {row : AgentRow}
    (hfingerprint : fingerprint = computeFingerprint env publicKey)
    (hout : db.insertAgent now agentId publicKey fingerprint org name = .ok (row, db')) :
    Agreeing env db' := by
  obtain ⟨rfl, rfl, hfresh, -, -⟩ := Db.insertAgent_eq_ok hout
  constructor
  · intro row hrow key hkey hid
    rcases List.mem_append.mp hrow with hrow | hrow <;>
      rcases List.mem_append.mp hkey with hkey | hkey
    · exact h.keys row hrow key hkey hid
    · rw [List.mem_singleton.mp hkey] at hid
      exact absurd hid.symm (hfresh row hrow)
    · rw [List.mem_singleton.mp hrow] at hid
      obtain ⟨agent, hagent, hagentId⟩ := hledger.exists_agent hkey
      exact absurd (hagentId.trans hid) (hfresh agent hagent)
    · rw [List.mem_singleton.mp hkey, List.mem_singleton.mp hrow]
  · intro row hrow
    rcases List.mem_append.mp hrow with hrow | hrow
    · exact h.fingerprints row hrow
    · rw [List.mem_singleton.mp hrow]
      exact hfingerprint

theorem Agreeing.insertRotation {env : Env} {db db' : Db} (h : Agreeing env db)
    {agentId expectedHex newHex : String} {newKey : Bytes} {now : Timestamp} {row : AgentKeyRow}
    (hregistered : ∀ row ∈ db.agents, row.agentId = agentId → row.publicKey = newKey)
    (hout : db.insertRotation agentId expectedHex newHex newKey now = .ok (row, db')) :
    Agreeing env db' := by
  obtain ⟨rfl, rfl, -, -⟩ := Db.insertRotation_eq_ok hout
  refine ⟨?_, h.fingerprints⟩
  intro row hrow key hkey hid
  rcases List.mem_append.mp hkey with hkey | hkey
  · obtain ⟨old, hold, rfl⟩ := List.mem_map.mp hkey
    rw [closeKey_agentId] at hid
    rw [closeKey_publicKey]
    exact h.keys row hrow old hold hid
  · rw [List.mem_singleton.mp hkey] at hid ⊢
    exact (hregistered row hrow hid.symm).symm

theorem Agreeing.exec {env : Env} {s : State} {r : Request} (h : Agreeing env s.db)
    (hledger : KeyLedger s.db) {op : Op} (hop : WritesOwn env r op)
    (hregistered : rotatesToRegistered s.db op = true) (c : Choice) :
    Agreeing env (exec env s op c).2.db := by
  rcases exec_ledger env s op c with ⟨-, ha, hk⟩ | ⟨_, _, _, _, _, _, hevent, hout⟩ |
    ⟨_, _, _, _, _, _, hevent, hout⟩
  · exact ⟨by rw [ha, hk]; exact h.keys, by rw [ha]; exact h.fingerprints⟩
  · obtain rfl := congrArg Library.Event.op hevent
    obtain ⟨req, -, -, -, hfingerprint, -⟩ := hop
    exact h.insertAgent hledger hfingerprint hout
  · obtain rfl := congrArg Library.Event.op hevent
    refine h.insertRotation ?_ hout
    intro row hrow hid
    simpa [hid] using List.all_eq_true.mp hregistered row hrow

theorem run_agreeing {env : Env} {labels : List Label}
    (h : Pool.Along (semantics env) {} RotatesToRegistered labels) :
    Agreeing env (run env labels).shared.db := by
  refine (Pool.run_trace_induction (C := RotatesToRegistered)
    (J := fun _ s => KeyLedger s.db ∧ Agreeing env s.db) (handler_writes env) ?_ ?_ ?_ labels h).2
  · exact ⟨run_keyLedger env [], by simp, by simp⟩
  · intro w i c r op k hi hop hcond hJ
    exact ⟨hJ.1.exec op c, hJ.2.exec hJ.1 hop (Pool.cond_of_performs hi hcond) c⟩
  · exact fun w t _ hJ => hJ

/-- What a lookup in the tables answers is the agent's current key: a peer that decodes it holds
that key. -/
def DirectoryCurrent (env : Env) (db : Db) (agentId : String) (body : AgentResponse) : Prop :=
  ∃ key, db.currentKey agentId = some key ∧ hexDecode body.publicKeyHex = .ok key.publicKey ∧
    body.fingerprint = computeFingerprint env key.publicKey

/-- Lookups give current keys: those that would be made now, and those that were made. -/
structure LookupsCurrent (env : Env) (w : World) : Prop where
  now : ∀ agentId row, w.shared.db.findAgent agentId = some row →
    DirectoryCurrent env w.shared.db agentId (.ofRow row)
  answered : ∀ i t agentId status body, w.tasks[i]? = some t → t.request = .getAgent agentId →
    w.outcome i = some (.ok (.agent status body)) →
    ∃ e ∈ w.trace, e.task = i ∧ e.event.op = .findAgent agentId ∧
      DirectoryCurrent env e.before.db agentId body

theorem Agreeing.directoryCurrent {env : Env} {db : Db} (h : Agreeing env db)
    (hledger : KeyLedger db) {agentId : String} {row : AgentRow}
    (hfound : db.findAgent agentId = some row) : DirectoryCurrent env db agentId (.ofRow row) := by
  have hrow := List.mem_of_find?_eq_some hfound
  obtain rfl : row.agentId = agentId := by simpa using List.find?_some hfound
  obtain ⟨key, hkey, hcurrent, hid⟩ := hledger.currentKey_eq_some hrow
  have hsame := h.keys row hrow key hkey hid
  refine ⟨key, hcurrent, ?_, ?_⟩
  · rw [hsame]
    exact hexDecode_hexEncode row.publicKey
  · rw [hsame]
    exact h.fingerprints row hrow

/-- In every run whose rotations bring in no key other than the registered one, lookups give the
current key. -/
theorem lookupsCurrent_of_rotatesToRegistered (env : Env) (labels : List Label)
    (h : Pool.Along (semantics env) {} RotatesToRegistered labels) :
    LookupsCurrent env (run env labels) := by
  constructor
  · intro agentId row hfound
    exact (run_agreeing h).directoryCurrent (run_keyLedger env labels) hfound
  · intro i t agentId status body ht hrequest hout
    have hconf := Pool.run_conforms (semantics env) {} labels
    have hrests := hconf.outcome_spec (handler_writes env) ht hout _ rfl
    rw [hrequest] at hrests
    obtain ⟨row, hsaw, hbody⟩ := hrests
    cases hbody
    obtain ⟨e, he, htask, hevent⟩ := Pool.mem_eventsOf.mp hsaw
    obtain ⟨past, rest, htrace⟩ := List.append_of_mem he
    obtain ⟨done, more, rfl, -, hbefore⟩ := Pool.run_entry (semantics env) htrace
    obtain ⟨c, hanswer⟩ := hconf.answered e he
    refine ⟨e, he, htask, by rw [hevent], ?_⟩
    obtain ⟨task, request, before, event⟩ := e
    dsimp only at hevent hanswer hbefore ⊢
    subst hevent hbefore
    have hfound : (run env done).shared.db.findAgent agentId = some row :=
      State.read_eq_ok hanswer.symm
    exact (run_agreeing h.of_append).directoryCurrent (run_keyLedger env done) hfound

/-- A registration and a lookup. -/
def Sample.lookup : List Label :=
  clockAt 1700000000 :: serve 0 (.register registerAlice) 3 ++ serve 1 (.getAgent alice) 1

theorem lookupsCurrent_of_rotatesToRegistered_lookup :
    (run Sample.env Sample.lookup).outcome 1 = some (.ok (.agent 200 ⟨Sample.alice,
      Sample.aliceKeyHex, "34750f", "acme", "alice", 1700000000000000⟩)) ∧
    LookupsCurrent Sample.env (run Sample.env Sample.lookup) := by
  have hrun : Pool.AlongTo (semantics Sample.env) RotatesToRegistered
      (fun w => w.outcome 1 = some (.ok (.agent 200 ⟨Sample.alice,
        Sample.aliceKeyHex, "34750f", "acme", "alice", 1700000000000000⟩)))
      ⟨{}, [], []⟩ Sample.lookup := by
    rw [Sample.env_eq]
    decide +kernel
  obtain ⟨halong, hanswer⟩ := run_checked hrun
  exact ⟨hanswer, lookupsCurrent_of_rotatesToRegistered Sample.env Sample.lookup halong⟩

/-- After a rotation the directory still answers with the registered key. -/
theorem rotation_not_current : ¬LookupsCurrent Sample.env (run Sample.env Sample.rotation) := by
  intro h
  obtain ⟨-, hdirectory, hledger⟩ := Sample.rotation_run
  obtain ⟨row, hrow, hregistered⟩ := Option.map_eq_some_iff.mp hdirectory
  obtain ⟨key, hkey, hdecode, -⟩ := h.now _ row hrow
  obtain ⟨key', hkey', hcurrent⟩ := Option.map_eq_some_iff.mp hledger
  rw [hkey] at hkey'
  cases hkey'
  rw [show (AgentResponse.ofRow row).publicKeyHex = hexEncode row.publicKey from rfl,
    hexDecode_hexEncode] at hdecode
  have hsame : row.publicKey = key.publicKey := by simpa using hdecode
  rw [hregistered, hcurrent] at hsame
  exact absurd hsame (by decide +kernel)

/-! ## One key, one row -/

/-- The unique indexes refuse the key of the operation if the ledger holds it. -/
def namesNewKey (db : Db) : Op → Bool
  | .insertRotation agentId _ newHex newKey _ =>
    db.agentKeys.all fun r => r.publicKey ≠ newKey || (r.agentId = agentId && r.publicKeyHex = newHex)
  | .insertAgent agentId publicKey _ _ _ =>
    db.agentKeys.all fun r => r.publicKey ≠ publicKey ||
      db.agents.any fun a => a.publicKey = publicKey || a.agentId = agentId
  | _ => true

def NamesNewKey (w : World) (l : Label) : Prop :=
  w.performs (fun _ s => namesNewKey s.db) l = true

instance (w : World) (l : Label) : Decidable (NamesNewKey w l) :=
  inferInstanceAs (Decidable (_ = true))

def KeysDistinct (db : Db) : Prop := (db.agentKeys.map (·.publicKey)).Nodup

/-- The key an accepted operation brings into the ledger. -/
def broughtIn : Library.Event effects → Option Bytes
  | ⟨.insertAgent _ publicKey _ _ _, .ok _⟩ => some publicKey
  | ⟨.insertRotation _ _ _ newKey _, .ok _⟩ => some newKey
  | _ => none

theorem keys_insertRotation {db db' : Db} {agentId expectedHex newHex : String} {newKey : Bytes}
    {now : Timestamp} {row : AgentKeyRow}
    (hout : db.insertRotation agentId expectedHex newHex newKey now = .ok (row, db')) :
    db'.agentKeys.map (·.publicKey) = db.agentKeys.map (·.publicKey) ++ [newKey] := by
  obtain ⟨rfl, rfl, -, -⟩ := Db.insertRotation_eq_ok hout
  simp [Function.comp_def, closeKey_publicKey]

/-- An accepted operation adds a key the ledger did not hold, or changes no key. -/
theorem exec_keys (env : Env) (s : State) (op : Op) (c : Choice)
    (h : namesNewKey s.db op = true) :
    (broughtIn ⟨op, (exec env s op c).1⟩ = none ∧
      (exec env s op c).2.db.agentKeys = s.db.agentKeys) ∨
    ∃ key, broughtIn ⟨op, (exec env s op c).1⟩ = some key ∧
      (∀ row ∈ s.db.agentKeys, row.publicKey ≠ key) ∧
      (exec env s op c).2.db.agentKeys.map (·.publicKey) =
        s.db.agentKeys.map (·.publicKey) ++ [key] := by
  rcases exec_ledger env s op c with ⟨hwrote, -, hk⟩ |
    ⟨agentId, publicKey, _, _, _, _, hevent, hout⟩ | ⟨_, _, newHex, newKey, _, _, hevent, hout⟩
  · refine Or.inl ⟨?_, hk⟩
    generalize (⟨op, (exec env s op c).1⟩ : Library.Event effects) = e at hwrote
    unfold broughtIn
    split
    · exact absurd trivial hwrote
    · exact absurd trivial hwrote
    · rfl
  · refine Or.inr ⟨publicKey, by rw [hevent]; rfl, ?_, ?_⟩
    · obtain rfl := congrArg Library.Event.op hevent
      obtain ⟨-, -, hid, hkey, -⟩ := Db.insertAgent_eq_ok hout
      intro row hrow hsame
      have hany := List.all_eq_true.mp h row hrow
      simp only [hsame, ne_eq, not_true_eq_false, decide_false, Bool.false_or, List.any_eq_true,
        Bool.or_eq_true, decide_eq_true_eq] at hany
      obtain ⟨a, ha, hkey' | hid'⟩ := hany
      · exact hkey a ha hkey'
      · exact hid a ha hid'
    · obtain ⟨-, hdb, -⟩ := Db.insertAgent_eq_ok hout
      rw [hdb]
      simp
  · refine Or.inr ⟨newKey, by rw [hevent]; rfl, ?_, keys_insertRotation hout⟩
    obtain rfl := congrArg Library.Event.op hevent
    obtain ⟨-, -, -, hdistinct⟩ := Db.insertRotation_eq_ok hout
    intro row hrow hsame
    have hspelled := List.all_eq_true.mp h row hrow
    simp only [hsame, ne_eq, not_true_eq_false, decide_false, Bool.false_or, Bool.and_eq_true,
      decide_eq_true_eq] at hspelled
    exact hdistinct row hrow hspelled

/-- No key stands in two rows, and whatever brings in a key the ledger holds is refused. -/
structure OneKeyOneRow (w : World) : Prop where
  state : KeysDistinct w.shared.db
  registered : ∀ i t req response, w.tasks[i]? = some t → t.request = .register req →
    w.outcome i = some (.ok response) → ∃ key e, hexDecode req.publicKeyHex = .ok key ∧
      e ∈ w.trace ∧ e.task = i ∧ broughtIn e.event = some key ∧
      ∀ row ∈ e.before.db.agentKeys, row.publicKey ≠ key
  rotated : ∀ i t req response, w.tasks[i]? = some t → t.request = .rotateKey req →
    w.outcome i = some (.ok response) → ∃ key e, hexDecode req.newPublicKeyHex = .ok key ∧
      e ∈ w.trace ∧ e.task = i ∧ broughtIn e.event = some key ∧
      ∀ row ∈ e.before.db.agentKeys, row.publicKey ≠ key

/-- Keys are distinct, and every key was new when it was brought in. -/
structure Distinct (trace : Trace) (db : Db) : Prop where
  keys : KeysDistinct db
  new : ∀ e ∈ trace, ∀ key, broughtIn e.event = some key →
    ∀ row ∈ e.before.db.agentKeys, row.publicKey ≠ key

theorem Distinct.exec {env : Env} {trace : Trace} {s : State} (h : Distinct trace s.db) (i : ℕ)
    (r : Request) {op : Op} (hop : namesNewKey s.db op = true) (c : Choice) :
    Distinct (trace ++ [⟨i, r, s, ⟨op, (exec env s op c).1⟩⟩]) (exec env s op c).2.db := by
  rcases exec_keys env s op c hop with ⟨hnone, hkeys⟩ | ⟨key, hkey, hnew, hkeys⟩
  · constructor
    · unfold KeysDistinct
      rw [hkeys]
      exact h.keys
    · intro e he
      rcases List.mem_append.mp he with he | he
      · exact h.new e he
      · intro key hkey
        rw [List.mem_singleton.mp he, hnone] at hkey
        cases hkey
  · constructor
    · unfold KeysDistinct
      rw [hkeys, List.nodup_append]
      refine ⟨h.keys, List.nodup_singleton key, ?_⟩
      intro a ha b hb
      rw [List.mem_singleton.mp hb]
      obtain ⟨row, hrow, rfl⟩ := List.mem_map.mp ha
      exact hnew row hrow
    · intro e he
      rcases List.mem_append.mp he with he | he
      · exact h.new e he
      · intro key' hkey'
        rw [List.mem_singleton.mp he] at hkey' ⊢
        rw [hkey] at hkey'
        cases hkey'
        exact hnew

/-- In every run whose registrations and rotations name no key the ledger holds in another spelling,
for another agent or through a rotation, no key stands in two rows. -/
theorem oneKeyOneRow_of_namesNewKey (env : Env) (labels : List Label)
    (h : Pool.Along (semantics env) {} NamesNewKey labels) : OneKeyOneRow (run env labels) := by
  have hdistinct : Distinct (run env labels).trace (run env labels).shared.db := by
    refine Pool.run_trace_induction (C := NamesNewKey) (J := fun trace s => Distinct trace s.db)
      (handler_writes env) ?_ ?_ (fun _ _ _ hJ => hJ) labels h
    · exact ⟨by simp [KeysDistinct], by simp⟩
    · intro w i c r op k hi _ hcond hJ
      exact hJ.exec i r (Pool.cond_of_performs hi hcond) c
  have hconf := Pool.run_conforms (semantics env) {} labels
  refine ⟨hdistinct.keys, ?_, ?_⟩
  · intro i t req response ht hrequest hout
    have hrests := hconf.outcome_spec (handler_writes env) ht hout response rfl
    rw [hrequest] at hrests
    obtain ⟨key, agentId, fingerprint, row, hdecode, hsaw⟩ := hrests
    obtain ⟨e, he, htask, hevent⟩ := Pool.mem_eventsOf.mp hsaw
    have hbrought : broughtIn e.event = some key := by rw [hevent]; rfl
    exact ⟨key, e, hdecode, he, htask, hbrought, hdistinct.new e he key hbrought⟩
  · intro i t req response ht hrequest hout
    have hrests := hconf.outcome_spec (handler_writes env) ht hout response rfl
    rw [hrequest] at hrests
    obtain ⟨key, expectedHex, now, row, hdecode, hsaw⟩ := hrests
    obtain ⟨e, he, htask, hevent⟩ := Pool.mem_eventsOf.mp hsaw
    have hbrought : broughtIn e.event = some key := by rw [hevent]; rfl
    exact ⟨key, e, hdecode, he, htask, hbrought, hdistinct.new e he key hbrought⟩

theorem oneKeyOneRow_of_namesNewKey_rotation :
    (run Sample.env Sample.rotation).shared.db.agentKeys.map (·.publicKeyHex) =
      [Sample.aliceKeyHex, Sample.rotateAlice.newPublicKeyHex] ∧
    OneKeyOneRow (run Sample.env Sample.rotation) := by
  have hrun : Pool.AlongTo (semantics Sample.env) NamesNewKey
      (fun w => w.shared.db.agentKeys.map (·.publicKeyHex) =
        [Sample.aliceKeyHex, Sample.rotateAlice.newPublicKeyHex])
      ⟨{}, [], []⟩ Sample.rotation := by
    rw [Sample.env_eq]
    decide +kernel
  obtain ⟨halong, hkeys⟩ := run_checked hrun
  exact ⟨hkeys, oneKeyOneRow_of_namesNewKey Sample.env Sample.rotation halong⟩

namespace Sample

/-- A rotation to the current key, spelled in upper case. -/
def respellAlice : RotateKeyRequest where
  agentId := alice
  newPublicKeyHex := "8A88E3DD7409F195FD52DB2D3CBA5D72CA6709BF1D94121BF3748801B40F6F5C"
  nonce := nonce 0xd2
  issuedAt := time + 3600
  signatureHex :=
    "4ebc55f40719b399862b783e11b4334cd30984af8d0ffd592c007efb540ad56a" ++
    "f24a1be06e7fc4bde772c08d05b556a66515749c659fa786e65a17bdc40eca06"

/-- The server that also knows the signature of this rotation. -/
def respellEnv : Env :=
  { env with
    verify := fun key message signature => env.verify key message signature ||
      (hexEncode key = aliceKeyHex && hexEncode signature = respellAlice.signatureHex &&
        rotateKeyChallengeBytes alice aliceKeyHex respellAlice.newPublicKeyHex respellAlice.nonce
          respellAlice.issuedAt = .ok message) }

/-- The rotation as the agent signed it. -/
def respellSigned : Signed :=
  ⟨aliceKeyHex, .rotateKeyChallengeBytes alice aliceKeyHex respellAlice.newPublicKeyHex
    respellAlice.nonce respellAlice.issuedAt, respellAlice.signatureHex⟩

theorem respellEnv_eq : respellEnv = knowing (signatures ++ [respellSigned]) :=
  eq_knowing_one (by decide +kernel) fun _ _ _ => rfl

def respelling : List Label :=
  clockAt 1700000000 :: serve 0 (.register registerAlice) 3 ++
    clockAt 1700003600 :: serve 1 (.rotateKey respellAlice) 5

end Sample

/-- The same 32 bytes stand in two rows of one agent. -/
theorem respelled_twice : ¬OneKeyOneRow (run Sample.respellEnv Sample.respelling) := by
  intro h
  have hkeys : (run Sample.respellEnv Sample.respelling).shared.db.agentKeys.map (·.publicKey) =
      List.replicate 2 (Sample.bytesOf Sample.aliceKeyHex) := by
    rw [Sample.respellEnv_eq]
    decide +kernel
  have hnodup := h.state
  unfold KeysDistinct at hnodup
  rw [hkeys] at hnodup
  simp at hnodup

end AgentExchange.ControlPlane
