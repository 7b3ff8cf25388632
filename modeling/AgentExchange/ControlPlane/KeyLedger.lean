import AgentExchange.ControlPlane.Lifecycle
import AgentExchange.Library.Succession

/-!
# The key ledger

The rows of an agent in `agent_keys` are a succession: each rotation closes the
open row, with a day of grace, and adds the next one. The current key is read and
verified before the transaction that replaces it; the transaction names the key it
expects, so it closes the row that was verified or fails.
-/
namespace AgentExchange.ControlPlane

open Library Wire

/-- Windows of `agent_keys` rows. -/
def keySuccession : Succession AgentKeyRow Timestamp where
  start := AgentKeyRow.validFrom
  stop := AgentKeyRow.validTo
  grace := Db.rotationGraceSecs * 1000000

def Db.keysOf (db : Db) (agentId : String) : List AgentKeyRow :=
  db.agentKeys.filter fun row => row.agentId = agentId

/-- The shape of `agents` and `agent_keys`. -/
structure KeyLedger (db : Db) : Prop where
  linear : ∀ agentId, keySuccession.Linear (db.keysOf agentId)
  registered : ∀ agentId, db.keysOf agentId ≠ [] ↔ agentId ∈ db.agents.map (·.agentId)
  distinct : db.agentKeys.Pairwise fun r r' =>
    ¬(r.agentId = r'.agentId ∧ r.publicKeyHex = r'.publicKeyHex)

section Statements

variable {db db' : Db}

theorem KeyLedger.unique (h : KeyLedger db) {r r' : AgentKeyRow} (hr : r ∈ db.agentKeys)
    (hr' : r' ∈ db.agentKeys) (hid : r.agentId = r'.agentId)
    (hhex : r.publicKeyHex = r'.publicKeyHex) : r = r' := by
  by_contra hne
  rcases pairwise_mem h.distinct hr hr' hne with hd | hd
  · exact hd ⟨hid, hhex⟩
  · exact hd ⟨hid.symm, hhex.symm⟩

theorem KeyLedger.insertAgent (h : KeyLedger db) {now : Timestamp}
    {agentId fingerprint org name : String} {publicKey : Bytes} {row : AgentRow}
    (hout : db.insertAgent now agentId publicKey fingerprint org name = .ok (row, db')) :
    KeyLedger db' := by
  obtain ⟨rfl, rfl, hfresh, -, -⟩ := Db.insertAgent_eq_ok hout
  have hempty : db.keysOf agentId = [] := by
    by_contra hne
    obtain ⟨agent, hagent, hid⟩ := List.mem_map.mp ((h.registered agentId).mp hne)
    exact hfresh agent hagent hid
  have hnone (r) (hr : r ∈ db.agentKeys) : r.agentId ≠ agentId := by
    intro hid
    have : r ∈ db.keysOf agentId := List.mem_filter.mpr ⟨hr, by simpa using hid⟩
    rw [hempty] at this
    cases this
  have hkeys (a : String) : Db.keysOf { db with
      agents := db.agents ++ [⟨agentId, publicKey, fingerprint, org, name, now⟩]
      agentKeys := db.agentKeys ++ [⟨agentId, hexEncode publicKey, publicKey, now, none⟩] } a =
      if a = agentId then [⟨agentId, hexEncode publicKey, publicKey, now, none⟩]
      else db.keysOf a := by
    unfold Db.keysOf
    rw [List.filter_append]
    split_ifs with ha
    · subst ha
      simpa [Db.keysOf] using hempty
    · simp [Ne.symm ha]
  constructor
  · intro a
    rw [hkeys]
    split_ifs
    · exact Succession.linear_singleton rfl
    · exact h.linear a
  · intro a
    rw [hkeys, List.map_append, List.mem_append, ← h.registered]
    split_ifs with ha
    · simp [ha]
    · simp [ha]
  · refine pairwise_snoc.mpr ⟨h.distinct, ?_⟩
    intro r hr hsame
    exact hnone r hr hsame.1

/-- The row a rotation leaves in place of an old one. -/
def supersede (current : AgentKeyRow) (until_ : Timestamp) (row : AgentKeyRow) : AgentKeyRow :=
  if row = current then { row with validTo := some until_ } else row

theorem supersede_agentId (current : AgentKeyRow) (until_ : Timestamp) (row : AgentKeyRow) :
    (supersede current until_ row).agentId = row.agentId := by
  unfold supersede
  split_ifs <;> rfl

theorem supersede_publicKeyHex (current : AgentKeyRow) (until_ : Timestamp) (row : AgentKeyRow) :
    (supersede current until_ row).publicKeyHex = row.publicKeyHex := by
  unfold supersede
  split_ifs <;> rfl

theorem supersede_validFrom (current : AgentKeyRow) (until_ : Timestamp) (row : AgentKeyRow) :
    (supersede current until_ row).validFrom = row.validFrom := by
  unfold supersede
  split_ifs <;> rfl

/-- The update closes the one row it expects. -/
theorem KeyLedger.map_closeKey (h : KeyLedger db) {current : AgentKeyRow}
    (hmem : current ∈ db.agentKeys) (hopen : current.validTo = none) (until_ : Timestamp) :
    db.agentKeys.map (Db.closeKey current.agentId current.publicKeyHex until_) =
      db.agentKeys.map (supersede current until_) := by
  refine List.map_congr_left fun r hr => ?_
  unfold Db.closeKey supersede
  refine if_congr ⟨?_, ?_⟩ rfl rfl
  · rintro ⟨hid, hhex, -⟩
    exact h.unique hr hmem hid hhex
  · rintro rfl
    exact ⟨rfl, rfl, hopen⟩

/-- When a key superseded at `t` stops being valid. -/
def graceEnd (t : Timestamp) : Timestamp := t + Db.rotationGraceSecs * 1000000

/-- The tables after a rotation from one row to the next. -/
def Db.rotated (db : Db) (current new : AgentKeyRow) : Db :=
  { db with agentKeys := db.agentKeys.map (supersede current (graceEnd new.validFrom)) ++ [new] }

theorem keysOf_rotated (db : Db) (current new : AgentKeyRow) (a : String) :
    (db.rotated current new).keysOf a =
      (db.keysOf a).map (supersede current (graceEnd new.validFrom)) ++
        if new.agentId = a then [new] else [] := by
  unfold Db.keysOf Db.rotated
  rw [List.filter_append, List.filter_map]
  congr 1
  · simp [Function.comp_def, supersede_agentId]
  · split_ifs with ha <;> simp [ha]

/-- A rotation closes the current row and adds the next one. -/
theorem KeyLedger.rotate (h : KeyLedger db) (current new : AgentKeyRow)
    (hmem : current ∈ db.agentKeys) (hopen : current.validTo = none)
    (hid : new.agentId = current.agentId) (hnew : new.validTo = none)
    (hdistinct : ∀ r ∈ db.agentKeys,
      ¬(r.agentId = new.agentId ∧ r.publicKeyHex = new.publicKeyHex)) :
    KeyLedger (db.rotated current new) := by
  have hcurrent : current ∈ db.keysOf current.agentId :=
    List.mem_filter.mpr ⟨hmem, by simp⟩
  obtain ⟨init, hinit⟩ := List.getLast?_eq_some_iff.mp
    ((h.linear current.agentId).getLast_of_open hcurrent hopen)
  constructor
  · intro a
    rw [keysOf_rotated]
    split_ifs with ha
    · subst ha
      have hlinear := h.linear current.agentId
      rw [hinit] at hlinear
      rw [hid, hinit, List.map_append, List.append_assoc]
      have hkept : init.map (supersede current (graceEnd new.validFrom)) = init := by
        refine (List.map_congr_left fun r hr => ?_).trans (List.map_id init)
        obtain ⟨u, hu⟩ := hlinear.closed_of_mem_init hr
        refine if_neg ?_
        rintro rfl
        exact absurd (hopen.symm.trans hu) (by simp)
      rw [hkept]
      change keySuccession.Linear (init ++ [supersede current _ current, new])
      refine hlinear.supersede ?_ ?_ hnew
      · simp [supersede, keySuccession]
      · simp [supersede, graceEnd, keySuccession, Succession.Follows]
    · rw [List.append_nil]
      have hkept : (db.keysOf a).map (supersede current (graceEnd new.validFrom)) =
          db.keysOf a := by
        refine (List.map_congr_left fun r hr => ?_).trans (List.map_id _)
        refine if_neg ?_
        rintro rfl
        have hr := (List.mem_filter.mp hr).2
        exact ha (hid.trans (by simpa using hr))
      rw [hkept]
      exact h.linear a
  · intro a
    refine Iff.trans ?_ (h.registered a)
    rw [keysOf_rotated]
    split_ifs with ha
    · have hne : db.keysOf a ≠ [] := by
        rw [← ha, hid, hinit]
        simp
      simp [hne]
    · simp
  · refine pairwise_snoc.mpr ⟨?_, ?_⟩
    · rw [List.pairwise_map]
      simpa [supersede_agentId, supersede_publicKeyHex] using h.distinct
    · intro r hr
      obtain ⟨old, hold, rfl⟩ := List.mem_map.mp hr
      rw [supersede_agentId, supersede_publicKeyHex]
      exact hdistinct old hold

/-- What a rotation does to a ledger. -/
theorem KeyLedger.insertRotation_eq (h : KeyLedger db) {agentId expectedHex newHex : String}
    {newKey : Bytes} {now : Timestamp} {row : AgentKeyRow}
    (hout : db.insertRotation agentId expectedHex newHex newKey now = .ok (row, db')) :
    ∃ current ∈ db.agentKeys, current.agentId = agentId ∧ current.publicKeyHex = expectedHex ∧
      current.validTo = none ∧ row = ⟨agentId, newHex, newKey, now, none⟩ ∧
      db' = db.rotated current row ∧ KeyLedger db' := by
  obtain ⟨rfl, rfl, ⟨current, hmem, rfl, rfl, hopen⟩, hdistinct⟩ := Db.insertRotation_eq_ok hout
  rw [h.map_closeKey hmem hopen]
  exact ⟨current, hmem, rfl, rfl, hopen, rfl, rfl,
    h.rotate current ⟨_, newHex, newKey, now, none⟩ hmem hopen rfl rfl hdistinct⟩

end Statements

/-! ## Steps and runs -/

/-- Everything one operation can do to the ledger. -/
theorem exec_ledger (env : Env) (s : State) (op : Op) (c : Choice) :
    (¬WroteLedger ⟨op, (exec env s op c).1⟩ ∧ (exec env s op c).2.db.agents = s.db.agents ∧
      (exec env s op c).2.db.agentKeys = s.db.agentKeys) ∨
    (∃ agentId publicKey fingerprint org name row,
      (⟨op, (exec env s op c).1⟩ : Library.Event effects) =
        ⟨.insertAgent agentId publicKey fingerprint org name, .ok row⟩ ∧
      s.db.insertAgent s.dbNow agentId publicKey fingerprint org name =
        .ok (row, (exec env s op c).2.db)) ∨
    ∃ agentId expectedHex newHex newKey now row,
      (⟨op, (exec env s op c).1⟩ : Library.Event effects) =
        ⟨.insertRotation agentId expectedHex newHex newKey now, .ok row⟩ ∧
      s.db.insertRotation agentId expectedHex newHex newKey now =
        .ok (row, (exec env s op c).2.db) := by
  by_cases hop : op.writes = some .ledger
  · cases op with
    | insertAgent agentId publicKey fingerprint org name =>
      rcases State.write_cases s c (s.db.insertAgent s.dbNow agentId publicKey fingerprint org name)
        with ⟨e, he⟩ | ⟨row, db, hout, hw⟩
      · simp only [exec, he]
        exact Or.inl ⟨id, trivial, trivial⟩
      · simp only [exec, hw]
        exact Or.inr (Or.inl ⟨_, _, _, _, _, row, rfl, hout⟩)
    | insertRotation agentId expectedHex newHex newKey now =>
      rcases State.write_cases s c (s.db.insertRotation agentId expectedHex newHex newKey now)
        with ⟨e, he⟩ | ⟨row, db, hout, hw⟩
      · simp only [exec, he]
        exact Or.inl ⟨id, trivial, trivial⟩
      · simp only [exec, hw]
        exact Or.inr (Or.inr ⟨_, _, _, _, _, row, rfl, hout⟩)
    | _ => cases hop
  · refine Or.inl ⟨?_, exec_ledger_frame hop⟩
    intro hwrote
    apply hop
    cases op with
    | insertAgent _ _ _ _ _ => rfl
    | insertRotation _ _ _ _ _ => rfl
    | _ => exact hwrote.elim

theorem KeyLedger.congr {db db' : Db} (h : KeyLedger db) (ha : db'.agents = db.agents)
    (hk : db'.agentKeys = db.agentKeys) : KeyLedger db' := by
  have hkeys (a : String) : db'.keysOf a = db.keysOf a := by rw [Db.keysOf, hk, Db.keysOf]
  exact ⟨fun a => by rw [hkeys]; exact h.linear a, fun a => by rw [hkeys, ha]; exact h.registered a,
    by rw [hk]; exact h.distinct⟩

theorem KeyLedger.exec {env : Env} {s : State} (h : KeyLedger s.db) (op : Op) (c : Choice) :
    KeyLedger (exec env s op c).2.db := by
  rcases exec_ledger env s op c with ⟨-, ha, hk⟩ | ⟨_, _, _, _, _, _, -, hout⟩ |
    ⟨_, _, _, _, _, _, -, hout⟩
  · exact h.congr ha hk
  · exact h.insertAgent hout
  · obtain ⟨_, _, _, _, _, _, _, hledger⟩ := h.insertRotation_eq hout
    exact hledger

theorem run_keyLedger (env : Env) (labels : List Label) :
    KeyLedger (run env labels).shared.db := by
  refine run_invariant env labels (J := fun _ s => KeyLedger s.db) ?_ ?_ fun _ _ _ h => h
  · exact ⟨fun _ => ⟨.nil, by simp [Db.keysOf]⟩, by simp [Db.keysOf], .nil⟩
  · exact fun _ s _ _ op c _ h => h.exec op c

/-- The same row, closed since or not. -/
def AgentKeyRow.Persists (row row' : AgentKeyRow) : Prop :=
  row' = row ∨ row.validTo = none ∧ ∃ until_, row' = { row with validTo := some until_ }

theorem AgentKeyRow.Persists.trans {r₁ r₂ r₃ : AgentKeyRow} (h : r₁.Persists r₂)
    (h' : r₂.Persists r₃) : r₁.Persists r₃ := by
  rcases h with rfl | ⟨hopen, u, rfl⟩
  · exact h'
  · rcases h' with rfl | ⟨hopen', -⟩
    · exact Or.inr ⟨hopen, u, rfl⟩
    · cases hopen'

theorem supersede_persists {current : AgentKeyRow} (hopen : current.validTo = none)
    (until_ : Timestamp) (row : AgentKeyRow) : row.Persists (supersede current until_ row) := by
  unfold supersede
  split_ifs with h
  · exact Or.inr ⟨h ▸ hopen, until_, rfl⟩
  · exact Or.inl rfl

theorem exec_persists (env : Env) {s : State} (h : KeyLedger s.db) (op : Op) (c : Choice) :
    ∀ row ∈ s.db.agentKeys, ∃ row' ∈ (exec env s op c).2.db.agentKeys, row.Persists row' := by
  intro row hrow
  rcases exec_ledger env s op c with ⟨-, -, hk⟩ | ⟨_, _, _, _, _, _, -, hout⟩ |
    ⟨_, _, _, _, _, _, -, hout⟩
  · exact ⟨row, by rwa [hk], Or.inl rfl⟩
  · obtain ⟨-, hdb, -⟩ := Db.insertAgent_eq_ok hout
    rw [hdb]
    exact ⟨row, List.mem_append_left _ hrow, Or.inl rfl⟩
  · obtain ⟨current, -, -, -, hopen, -, hdb, -⟩ := h.insertRotation_eq hout
    rw [hdb]
    exact ⟨_, List.mem_append_left _ (List.mem_map_of_mem hrow), supersede_persists hopen _ row⟩

/-- Rows of the ledger stay for the rest of the run. -/
theorem run_persists (env : Env) (labels rest : List Label) :
    ∀ row ∈ (run env labels).shared.db.agentKeys,
      ∃ row' ∈ (run env (labels ++ rest)).shared.db.agentKeys, row.Persists row' := by
  intro row hrow
  induction rest using List.reverseRecOn with
  | nil => exact ⟨row, by simpa using hrow, Or.inl rfl⟩
  | append_singleton rest l ih =>
    obtain ⟨mid, hmid, hpersists⟩ := ih
    have hledger := run_keyLedger env (labels ++ rest)
    rw [← List.append_assoc]
    unfold run at hmid hledger ⊢
    rw [Pool.run_snoc]
    generalize Pool.run (semantics env) {} (labels ++ rest) = w at hmid hledger ⊢
    have hstep := Pool.next_step (semantics env) w l
    generalize w.next (semantics env) l = w' at hstep
    cases hstep with
    | @perform i c r op k _ =>
      obtain ⟨row', hrow', hp⟩ := exec_persists env hledger op c mid hmid
      exact ⟨row', hrow', hpersists.trans hp⟩
    | _ => exact ⟨mid, hmid, hpersists⟩

/-- The key a rotation read is still in the ledger when the rotation is performed. -/
theorem currentKey_persists {env : Env} {labels : List Label} {i : ℕ} {agentId : String}
    {current : AgentKeyRow} (hsaw : Saw (Pool.eventsOf (run env labels).trace i)
      (.currentKey agentId) (.ok (some current))) :
    current.agentId = agentId ∧ current.validTo = none ∧
      ∃ row ∈ (run env labels).shared.db.agentKeys, current.Persists row := by
  obtain ⟨e, he, -, hevent⟩ := Pool.mem_eventsOf.mp hsaw
  obtain ⟨past, rest, htrace⟩ := List.append_of_mem he
  obtain ⟨done, more, rfl, -, hbefore⟩ := Pool.run_entry (semantics env) htrace
  obtain ⟨c, hanswer⟩ := (Pool.run_conforms (semantics env) {} _).answered e he
  obtain ⟨task, request, before, event⟩ := e
  dsimp only at hevent hanswer hbefore
  subst hevent hbefore
  have hfound : (run env done).shared.db.currentKey agentId = some current :=
    State.read_eq_ok hanswer.symm
  have hmem := List.mem_of_find?_eq_some hfound
  have hprops : current.agentId = agentId ∧ current.validTo = none := by
    simpa using List.find?_some hfound
  exact ⟨hprops.1, hprops.2, run_persists env done more current hmem⟩

/-- A rotation closes exactly the row whose key verified its signature, and adds one. -/
theorem rotation_closes_verified {env : Env} {labels : List Label} {l : Label}
    {e : Entry effects State Request} {agentId expectedHex newHex : String} {newKey : Bytes}
    {now : Timestamp} {row : AgentKeyRow}
    (htrace : (run env (labels ++ [l])).trace = (run env labels).trace ++ [e])
    (hevent : e.event = ⟨.insertRotation agentId expectedHex newHex newKey now, .ok row⟩) :
    ∃ req current canonical signature, e.request = .rotateKey req ∧
      current ∈ (run env labels).shared.db.agentKeys ∧ current.agentId = req.agentId ∧
      current.validTo = none ∧
      rotateKeyChallengeBytes req.agentId current.publicKeyHex req.newPublicKeyHex req.nonce
        req.issuedAt = .ok canonical ∧
      hexDecode req.signatureHex = .ok signature ∧
      env.verify current.publicKey canonical signature = true ∧
      row = ⟨req.agentId, req.newPublicKeyHex, newKey, now, none⟩ ∧
      (run env (labels ++ [l])).shared.db = (run env labels).shared.db.rotated current row := by
  have hledger := run_keyLedger env labels
  have hstep := Pool.next_step (semantics env) (run env labels) l
  rw [run, ← Pool.run_snoc] at hstep
  obtain ⟨c, k, hi, -, hanswer, hshared⟩ := hstep.performed (semantics env) htrace
  have hpermits := (Pool.run_conforms (semantics env) {} labels).pending_spec (handler_spec env) hi
  obtain ⟨task, request, before, event⟩ := e
  dsimp only at hevent hanswer hpermits hshared
  subst hevent
  obtain ⟨req, rfl, rfl, rfl, current, canonical, signature, hsaw, rfl, hcanonical, hsignature,
    hverify, -⟩ := hpermits
  obtain ⟨hid, hopen, read, hread, hpersists⟩ := currentKey_persists hsaw
  obtain ⟨db', hout, hwrite⟩ := State.write_eq_ok hanswer.symm
  obtain ⟨closed, hclosed, hclosedId, hclosedHex, hclosedOpen, hrow, hdb, -⟩ :=
    hledger.insertRotation_eq hout
  -- the row that was read and the row that is closed have the same key, so they are one row
  have hsame : current = closed := by
    rcases hpersists with rfl | ⟨-, until_, rfl⟩
    · exact hledger.unique hread hclosed (hid.trans hclosedId.symm) hclosedHex.symm
    · have hrows := hledger.unique hread hclosed (hid.trans hclosedId.symm) hclosedHex.symm
      rw [← hrows] at hclosedOpen
      cases hclosedOpen
  subst hsame
  refine ⟨req, current, canonical, signature, rfl, hclosed, hid, hopen, hcanonical, hsignature,
    hverify, hrow, ?_⟩
  rw [← hdb]
  exact (congrArg State.db hshared).trans (congrArg (fun out => out.2.db) hwrite)

/-! ## One clock -/

/-- What the clock was set to. -/
def readings (labels : List Label) : List Timestamp :=
  labels.filterMap fun
    | .environment t => some t.now
    | _ => none

/-- The injected clock and the database clock are one clock, which never goes back. -/
def OneClock (labels : List Label) : Prop :=
  (∀ t, .environment t ∈ labels → t.dbNow = t.now) ∧ (0 :: readings labels).Pairwise (· ≤ ·)

theorem run_now_mem (env : Env) (labels : List Label) :
    (run env labels).shared.now ∈ 0 :: readings labels := by
  induction labels using List.reverseRecOn with
  | nil => simp [run, Pool.run]
  | append_singleton labels l ih =>
    have hstep := Pool.next_step (semantics env) (run env labels) l
    rw [run, ← Pool.run_snoc] at hstep
    change Pool.Step _ _ l (run env (labels ++ [l])) at hstep
    generalize run env (labels ++ [l]) = w at hstep
    unfold readings at ih ⊢
    rw [List.filterMap_append, ← List.cons_append]
    cases hstep with
    | perform hi =>
      refine List.mem_append_left _ ?_
      dsimp only [semantics]
      rw [exec_clocks.1]
      exact ih
    | environment t => simp [semantics]
    | _ => exact List.mem_append_left _ ih

/-- The clock step of a run with one clock. -/
def ClockStep (w : World) : Label → Prop
  | .environment t => t.dbNow = t.now ∧ w.shared.now ≤ t.now
  | _ => True

theorem OneClock.along {labels : List Label} (h : OneClock labels) (env : Env) :
    Pool.Along (semantics env) {} ClockStep labels := by
  rintro done l rest rfl
  cases l with
  | environment t =>
    refine ⟨h.1 t (by simp), ?_⟩
    have hsorted := h.2
    unfold readings at hsorted
    rw [List.filterMap_append, ← List.cons_append, List.pairwise_append] at hsorted
    exact hsorted.2.2 _ (run_now_mem env done) t.now (by simp)
  | _ => trivial

/-- No clock reading and no key is ahead of the clock. -/
structure Clocked (trace : Trace) (s : State) : Prop where
  one : s.dbNow = s.now
  readings : ∀ e ∈ trace, ∀ t, e.event = ⟨.clockNow, t⟩ → t ≤ s.now
  started : ∀ row ∈ s.db.agentKeys, row.validFrom ≤ s.now

theorem Clocked.perform {env : Env} {trace : Trace} {s : State} {i : ℕ} {r : Request} {op : Op}
    (h : Clocked trace s) (hledger : KeyLedger s.db) (c : Choice)
    (hop : permits env r (Pool.eventsOf trace i) op) :
    Clocked (trace ++ [⟨i, r, s, ⟨op, (exec env s op c).1⟩⟩]) (exec env s op c).2 := by
  have hclocks := @exec_clocks env s op c
  constructor
  · rw [hclocks.1, hclocks.2]
    exact h.one
  · rw [hclocks.1]
    intro e he t ht
    rcases List.mem_append.mp he with he | he
    · exact h.readings e he t ht
    · rw [List.mem_singleton.mp he] at ht
      cases op with
      | clockNow =>
        cases ht
        exact le_rfl
      | _ => cases congrArg Library.Event.op ht
  · rw [hclocks.1]
    intro row hrow
    rcases exec_ledger env s op c with ⟨-, -, hk⟩ | ⟨_, _, _, _, _, _, -, hout⟩ |
      ⟨_, _, _, _, now, _, hevent, hout⟩
    · exact h.started row (by rwa [← hk])
    · obtain ⟨-, hdb, -⟩ := Db.insertAgent_eq_ok hout
      rw [hdb] at hrow
      rcases List.mem_append.mp hrow with hrow | hrow
      · exact h.started row hrow
      · rw [List.mem_singleton.mp hrow]
        exact h.one.le
    · obtain ⟨current, -, -, -, hopen, hnew, hdb, -⟩ := hledger.insertRotation_eq hout
      rw [hdb] at hrow
      rcases List.mem_append.mp hrow with hrow | hrow
      · obtain ⟨old, hold, rfl⟩ := List.mem_map.mp hrow
        rw [supersede_validFrom]
        exact h.started old hold
      · rw [List.mem_singleton.mp hrow, hnew]
        have hop' := congrArg Library.Event.op hevent
        dsimp only at hop'
        subst hop'
        obtain ⟨req, -, -, -, _, _, _, -, -, -, -, -, hsaw⟩ := hop
        obtain ⟨e, he, -, he'⟩ := Pool.mem_eventsOf.mp hsaw
        exact h.readings e he now he'

theorem run_clocked {env : Env} {labels : List Label} (h : OneClock labels) :
    Clocked (run env labels).trace (run env labels).shared := by
  refine (Pool.run_trace_induction (C := ClockStep)
    (J := fun trace s => KeyLedger s.db ∧ Clocked trace s) (handler_spec env) ?_ ?_ ?_ labels
    (h.along env)).2
  · exact ⟨run_keyLedger env [], rfl, by simp, by simp⟩
  · intro w i c r op k _ hop _ hJ
    exact ⟨hJ.1.exec op c, hJ.2.perform hJ.1 c hop⟩
  · rintro w t ⟨hone, hle⟩ ⟨hledger, hclocked⟩
    exact ⟨hledger, hone, fun e he t ht => (hclocked.readings e he t ht).trans hle,
      fun row hrow => (hclocked.started row hrow).trans hle⟩

/-! ## What the ledger says -/

/-- A registered agent has one open row. -/
theorem KeyLedger.count_open {db : Db} (h : KeyLedger db) {agent : AgentRow}
    (hagent : agent ∈ db.agents) :
    db.agentKeys.countP (fun r => r.agentId = agent.agentId && r.validTo = none) = 1 := by
  have hne := (h.registered agent.agentId).mpr (List.mem_map_of_mem hagent)
  have hlinear := h.linear agent.agentId
  rcases List.eq_nil_or_concat (db.keysOf agent.agentId) with hnil | ⟨init, last, hkeys⟩
  · exact absurd hnil hne
  · rw [List.concat_eq_append] at hkeys
    have hcount : db.agentKeys.countP (fun r => r.agentId = agent.agentId && r.validTo = none) =
        (db.keysOf agent.agentId).countP fun r => r.validTo = none := by
      rw [Db.keysOf, List.countP_filter]
      simp [Bool.and_comm]
    rw [hkeys] at hlinear
    rw [hcount, hkeys, List.countP_append, List.countP_eq_zero.mpr]
    · have hlast : last.validTo = none := hlinear.last last (by simp)
      simp [hlast]
    · intro r hr
      obtain ⟨u, hu⟩ := hlinear.closed_of_mem_init hr
      have hu : r.validTo = some u := hu
      simp [hu]

theorem keyValidAt_iff {t : Timestamp} {row : AgentKeyRow} :
    Db.keyValidAt t row = true ↔ keySuccession.Valid t row := by
  unfold Db.keyValidAt Succession.Valid keySuccession
  cases hto : row.validTo <;> simp [hto]

theorem mem_validKeysAt {db : Db} {agentId : String} {t : Timestamp} {row : AgentKeyRow} :
    row ∈ db.validKeysAt agentId t ↔
      row ∈ db.agentKeys ∧ row.agentId = agentId ∧ keySuccession.Valid t row := by
  rw [Db.validKeysAt, List.mem_insertionSort, List.mem_filter, Bool.and_eq_true, keyValidAt_iff,
    decide_eq_true_eq]

/-- From the last start on, the valid keys are the current one and those superseded less than a
day ago. -/
theorem KeyLedger.mem_validKeysAt_iff {db : Db} (h : KeyLedger db) {agentId : String}
    {t : Timestamp} (ht : ∀ row ∈ db.keysOf agentId, row.validFrom ≤ t) (row : AgentKeyRow) :
    row ∈ db.validKeysAt agentId t ↔ row ∈ db.keysOf agentId ∧ (row.validTo = none ∨
      ∃ next, Succession.Successor (db.keysOf agentId) row next ∧ t < graceEnd next.validFrom) := by
  have hmem : row ∈ db.keysOf agentId ↔ row ∈ db.agentKeys ∧ row.agentId = agentId := by
    simp [Db.keysOf]
  rw [mem_validKeysAt, ← and_assoc, ← hmem]
  exact and_congr_right fun hrow => (h.linear agentId).valid_iff hrow (ht row hrow)

/-- A key that has expired is not valid again. -/
theorem expired_forever (env : Env) (labels rest : List Label) {row row' : AgentKeyRow}
    {until_ t : Timestamp} (hrow : row ∈ (run env labels).shared.db.agentKeys)
    (hexpired : row.validTo = some until_) (ht : until_ ≤ t)
    (hrow' : row' ∈ (run env (labels ++ rest)).shared.db.validKeysAt row.agentId t) :
    row'.publicKeyHex ≠ row.publicKeyHex := by
  intro hhex
  obtain ⟨hmem, hid, hvalid⟩ := mem_validKeysAt.mp hrow'
  obtain ⟨kept, hkept, hpersists⟩ := run_persists env labels rest row hrow
  rcases hpersists with rfl | ⟨hopen, -⟩
  · rw [(run_keyLedger env (labels ++ rest)).unique hmem hkept hid hhex] at hvalid
    exact absurd (hvalid.2 until_ hexpired) (not_lt.mpr ht)
  · rw [hexpired] at hopen
    cases hopen

/-- A registration or rotation that returns an error changed neither table at any step. -/
theorem error_keeps_ledger (env : Env) (done rest : List Label) {i : ℕ} {c : Choice}
    {t : Task effects Request ApiError Response} {e : ApiError}
    (ht : (run env (done ++ .step i c :: rest)).tasks[i]? = some t)
    (hrequest : (∃ req, t.request = .register req) ∨ ∃ req, t.request = .rotateKey req)
    (hout : (run env (done ++ .step i c :: rest)).outcome i = some (.error e)) :
    (run env (done ++ [.step i c])).shared.db.agents = (run env done).shared.db.agents ∧
      (run env (done ++ [.step i c])).shared.db.agentKeys =
        (run env done).shared.db.agentKeys := by
  have hkept : ∀ ev ∈ Pool.eventsOf (run env (done ++ .step i c :: rest)).trace i,
      ¬WroteLedger ev := by
    have hensures := (Pool.run_conforms (semantics env) {} _).outcome_spec (handler_spec env) ht
      hout
    rcases hrequest with ⟨req, hreq⟩ | ⟨req, hreq⟩ <;> rw [hreq] at hensures <;> exact hensures
  have hprefix := Pool.run_trace_grows (ε := ApiError) (α := Response) (semantics env) {}
    (done ++ [.step i c]) rest
  rw [List.append_assoc, List.singleton_append] at hprefix
  have hstep := Pool.next_step (semantics env) (run env done) (.step i c)
  rw [run, ← Pool.run_snoc] at hstep
  change Pool.Step _ (run env done) _ (run env (done ++ [.step i c])) at hstep
  change (run env (done ++ [.step i c])).trace <+: _ at hprefix
  generalize run env (done ++ [.step i c]) = w' at hstep hprefix
  cases hstep with
  | @perform _ _ r op k hi =>
    have hmem : (⟨op, (exec env (run env done).shared op c).1⟩ : Library.Event effects) ∈
        Pool.eventsOf (run env (done ++ .step i c :: rest)).trace i :=
      Pool.mem_eventsOf.mpr ⟨_, hprefix.subset (List.mem_append_right _
        (List.mem_singleton.mpr rfl)), rfl, rfl⟩
    rcases exec_ledger env (run env done).shared op c with ⟨-, ha, hk⟩ |
      ⟨_, _, _, _, _, _, hevent, -⟩ | ⟨_, _, _, _, _, _, hevent, -⟩
    · exact ⟨ha, hk⟩
    · rw [hevent] at hmem
      exact absurd trivial (hkept _ hmem)
    · rw [hevent] at hmem
      exact absurd trivial (hkept _ hmem)
  | idle => exact ⟨rfl, rfl⟩

/-- The key ledger in every run with one clock: one open row per agent; one chain of rows, in which
each rotation closes the row it verified; the keys valid from the last event on; and errors that
leave both tables alone. -/
theorem key_ledger (env : Env) (labels : List Label) (hclock : OneClock labels) :
    (∀ agent ∈ (run env labels).shared.db.agents, (run env labels).shared.db.agentKeys.countP
      (fun r => r.agentId = agent.agentId && r.validTo = none) = 1) ∧
    (∀ agentId, keySuccession.Linear ((run env labels).shared.db.keysOf agentId)) ∧
    (∀ (l : Label) (e : Entry effects State Request) (agentId expectedHex newHex : String)
        (newKey : Bytes) (now : Timestamp) (row : AgentKeyRow),
      (run env (labels ++ [l])).trace = (run env labels).trace ++ [e] →
      e.event = ⟨.insertRotation agentId expectedHex newHex newKey now, .ok row⟩ →
      ∃ req current canonical signature, e.request = .rotateKey req ∧
        current ∈ (run env labels).shared.db.agentKeys ∧ current.agentId = req.agentId ∧
        current.validTo = none ∧
        rotateKeyChallengeBytes req.agentId current.publicKeyHex req.newPublicKeyHex req.nonce
          req.issuedAt = .ok canonical ∧
        hexDecode req.signatureHex = .ok signature ∧
        env.verify current.publicKey canonical signature = true ∧
        row = ⟨req.agentId, req.newPublicKeyHex, newKey, now, none⟩ ∧
        (run env (labels ++ [l])).shared.db = (run env labels).shared.db.rotated current row) ∧
    (∀ row ∈ (run env labels).shared.db.agentKeys,
      row.validFrom ≤ (run env labels).shared.now) ∧
    (∀ agentId t, (∀ row ∈ (run env labels).shared.db.keysOf agentId, row.validFrom ≤ t) →
      ∀ row, row ∈ (run env labels).shared.db.validKeysAt agentId t ↔
        row ∈ (run env labels).shared.db.keysOf agentId ∧ (row.validTo = none ∨
          ∃ next, Succession.Successor ((run env labels).shared.db.keysOf agentId) row next ∧
            t < graceEnd next.validFrom)) ∧
    (∀ row ∈ (run env labels).shared.db.agentKeys, ∀ until_ t, row.validTo = some until_ →
      until_ ≤ t → ∀ rest, ∀ row' ∈ (run env (labels ++ rest)).shared.db.validKeysAt row.agentId t,
        row'.publicKeyHex ≠ row.publicKeyHex) ∧
    ∀ i t e, (run env labels).tasks[i]? = some t →
      ((∃ req, t.request = .register req) ∨ ∃ req, t.request = .rotateKey req) →
      (run env labels).outcome i = some (.error e) →
      ∀ (done : List Label) (c : Choice) (rest : List Label), labels = done ++ .step i c :: rest →
        (run env (done ++ [.step i c])).shared.db.agents = (run env done).shared.db.agents ∧
        (run env (done ++ [.step i c])).shared.db.agentKeys =
          (run env done).shared.db.agentKeys := by
  have hledger := run_keyLedger env labels
  refine ⟨fun agent hagent => hledger.count_open hagent, hledger.linear, ?_,
    (run_clocked hclock).started, fun agentId t ht => hledger.mem_validKeysAt_iff ht, ?_, ?_⟩
  · intro l e agentId expectedHex newHex newKey now row htrace hevent
    exact rotation_closes_verified htrace hevent
  · intro row hrow until_ t hexpired ht rest row' hrow'
    exact expired_forever env labels rest hrow hexpired ht hrow'
  · rintro i t e ht hrequest hout done c rest rfl
    exact error_keeps_ledger env done rest ht hrequest hout

/-- A registration, and a rotation an hour later. -/
def Sample.rotation : List Label :=
  clockAt 1700000000 :: serve 0 (.register registerAlice) 3 ++
    clockAt 1700003600 :: serve 1 (.rotateKey rotateAlice) 5

/-- What the rotation leaves behind: the old key with an end, the new one as the current key, and
the directory row as it was registered. -/
theorem Sample.rotation_run :
    (run Sample.env Sample.rotation).shared.db.agentKeys.map (·.validTo) =
        [some 1700090000000000, none] ∧
      ((run Sample.env Sample.rotation).shared.db.findAgent Sample.alice).map
        (·.publicKey) = some (Sample.bytesOf Sample.aliceKeyHex) ∧
      ((run Sample.env Sample.rotation).shared.db.currentKey Sample.alice).map (·.publicKey) =
        some (Sample.bytesOf Sample.rotateAlice.newPublicKeyHex) := by
  rw [Sample.env_eq]
  decide +kernel

theorem key_ledger_rotation :
    (run Sample.env Sample.rotation).shared.db.agentKeys.map (·.validTo) =
        [some 1700090000000000, none] ∧
      ∀ agent ∈ (run Sample.env Sample.rotation).shared.db.agents,
        (run Sample.env Sample.rotation).shared.db.agentKeys.countP
          (fun r => r.agentId = agent.agentId && r.validTo = none) = 1 := by
  have hclock : OneClock Sample.rotation := by
    refine ⟨?_, by decide⟩
    intro t ht
    have ht : t = ⟨1700000000000000, 1700000000000000⟩ ∨
        t = ⟨1700003600000000, 1700003600000000⟩ := by
      simpa [Sample.rotation, Sample.serve, Sample.clockAt] using ht
    rcases ht with rfl | rfl <;> rfl
  exact ⟨Sample.rotation_run.1, (key_ledger Sample.env Sample.rotation hclock).1⟩

end AgentExchange.ControlPlane
