import AgentExchange.ControlPlane.Frame
import AgentExchange.ControlPlane.Handlers

/-!
# The life of a transfer row

Every statement on `transfers` is an insert of a fresh identifier or a guarded
update. `TableStep` says what one operation does to the table; the run invariant
`Table` ties each row to the operations that took effect on it.
-/
namespace AgentExchange.ControlPlane

open Library

/-- The ghost trace of the server. -/
abbrev Trace := List (Entry effects State Request)

/-- The columns that no statement rewrites. -/
def TransferRow.fixed (row : TransferRow) : InsertTransfer × Timestamp :=
  ({ row.toInsertTransfer with state := .readyForPickup, reachableAt := [] }, row.createdAt)

theorem TransferRow.transferId_of_fixed {row row' : TransferRow} (h : row.fixed = row'.fixed) :
    row.transferId = row'.transferId :=
  congrArg (fun f => f.1.transferId) h

theorem TransferRow.columns_of_fixed {row row' : TransferRow} (h : row.fixed = row'.fixed) :
    row.senderAgentId = row'.senderAgentId ∧ row.recipient = row'.recipient ∧
      row.sizeBytes = row'.sizeBytes ∧ row.declaredMime = row'.declaredMime ∧
      row.filename = row'.filename ∧ row.blobSha256 = row'.blobSha256 :=
  ⟨congrArg (·.1.senderAgentId) h, congrArg (·.1.recipient) h, congrArg (·.1.sizeBytes) h,
    congrArg (·.1.declaredMime) h, congrArg (·.1.filename) h, congrArg (·.1.blobSha256) h⟩

inductive TransferState.Moves : TransferState → TransferState → Prop
  | accept : Moves .readyForPickup .accepted
  | deliver : Moves .readyForPickup .delivered
  | deliverAccepted : Moves .accepted .delivered

/-- What one step may do to a row. -/
structure TransferRow.Steps (row row' : TransferRow) : Prop where
  fixed : row'.fixed = row.fixed
  state : row'.state = row.state ∨ row.state.Moves row'.state

theorem TransferRow.Steps.refl (row : TransferRow) : row.Steps row := ⟨rfl, Or.inl rfl⟩

theorem TransferRow.Steps.rejected {row row' : TransferRow} (h : row.Steps row')
    (hstate : row.state = .rejected) : row'.state = .rejected := by
  rcases h.state with hsame | hmove
  · exact hsame.trans hstate
  · rw [hstate] at hmove
    cases hmove

def acceptable (transferId : String) (row : TransferRow) : Bool :=
  row.transferId = transferId && row.state = .readyForPickup

def deliverable (transferId : String) (row : TransferRow) : Bool :=
  row.transferId = transferId && (row.state = .accepted || row.state = .readyForPickup)

def acceptRow (now : Timestamp) (transferId : String) (row : TransferRow) : TransferRow :=
  if acceptable transferId row then { row with state := .accepted, acceptedAt := some now } else row

def deliverRow (now : Timestamp) (transferId : String) (row : TransferRow) : TransferRow :=
  if deliverable transferId row then { row with state := .delivered, deliveredAt := some now }
  else row

def persistable (transferId : String) (row : TransferRow) : Bool := row.transferId = transferId

def persistRow (transferId : String) (endpoints : List Endpoint) (row : TransferRow) :
    TransferRow :=
  if persistable transferId row then { row with reachableAt := endpoints } else row

/-- The answer of a statement on `transfers` that did not take effect. -/
def Op.Failed : (op : Op) → op.Answer → Prop
  | .insertTransfer _, .error _ => True
  | .markAccepted _, .error _ => True
  | .markDelivered _, .error _ => True
  | .persistReachableAt _ _, .error _ => True
  | _, _ => False

/-- Everything one operation can do to the table of transfers. -/
inductive TableStep (now : Timestamp) (rows : List TransferRow) :
    (op : Op) → op.Answer → List TransferRow → Prop
  | quiet {op : Op} {answer : op.Answer} (h : op.writes ≠ some .transfers) :
    TableStep now rows op answer rows
  | failed {op : Op} {answer : op.Answer} (h : op.Failed answer) : TableStep now rows op answer rows
  | insert (t : InsertTransfer) (h : ∀ row ∈ rows, row.transferId ≠ t.transferId) :
    TableStep now rows (.insertTransfer t) (.ok { t with createdAt := now })
      (rows ++ [{ t with createdAt := now }])
  | accept (transferId : String) :
    TableStep now rows (.markAccepted transferId) (.ok (rows.countP (acceptable transferId)))
      (rows.map (acceptRow now transferId))
  | deliver (transferId : String) :
    TableStep now rows (.markDelivered transferId) (.ok (rows.countP (deliverable transferId)))
      (rows.map (deliverRow now transferId))
  | persist (transferId : String) (endpoints : List Endpoint) (updated : ℕ) :
    TableStep now rows (.persistReachableAt transferId endpoints) (.ok updated)
      (rows.map (persistRow transferId endpoints))

theorem exec_tableStep (env : Env) (s : State) (op : Op) (c : Choice) :
    TableStep s.dbNow s.db.transfers op (exec env s op c).1 (exec env s op c).2.db.transfers := by
  by_cases hop : op.writes = some .transfers
  · cases op with
    | insertTransfer t =>
      rcases State.write_cases s c (s.db.insertTransfer s.dbNow t) with ⟨e, he⟩ | ⟨row, db, hout, hw⟩
      · simp only [exec, he]
        exact .failed trivial
      · obtain ⟨rfl, rfl, hfresh⟩ := Db.insertTransfer_eq_ok hout
        simp only [exec, hw]
        exact .insert t hfresh
    | markAccepted transferId =>
      rcases State.write_cases s c (.ok (s.db.markAccepted s.dbNow transferId)) with
        ⟨e, he⟩ | ⟨n, db, hout, hw⟩
      · simp only [exec, he]
        exact .failed trivial
      · cases hout
        simp only [exec, hw]
        exact .accept transferId
    | markDelivered transferId =>
      rcases State.write_cases s c (.ok (s.db.markDelivered s.dbNow transferId)) with
        ⟨e, he⟩ | ⟨n, db, hout, hw⟩
      · simp only [exec, he]
        exact .failed trivial
      · cases hout
        simp only [exec, hw]
        exact .deliver transferId
    | persistReachableAt transferId endpoints =>
      rcases State.write_cases s c (.ok (s.db.persistReachableAt transferId endpoints)) with
        ⟨e, he⟩ | ⟨n, db, hout, hw⟩
      · simp only [exec, he]
        exact .failed trivial
      · cases hout
        simp only [exec, hw]
        exact .persist transferId endpoints _
    | _ => cases hop
  · rw [exec_transfers_frame hop]
    exact .quiet hop

theorem acceptRow_steps (now : Timestamp) (transferId : String) (row : TransferRow) :
    row.Steps (acceptRow now transferId row) := by
  unfold acceptRow
  split_ifs with h
  · obtain ⟨-, hready⟩ : row.transferId = transferId ∧ row.state = .readyForPickup := by
      simpa [acceptable] using h
    exact ⟨rfl, Or.inr (hready ▸ .accept)⟩
  · exact .refl row

theorem deliverRow_steps (now : Timestamp) (transferId : String) (row : TransferRow) :
    row.Steps (deliverRow now transferId row) := by
  unfold deliverRow
  split_ifs with h
  · obtain ⟨-, hstate | hstate⟩ : row.transferId = transferId ∧
        (row.state = .accepted ∨ row.state = .readyForPickup) := by simpa [deliverable] using h
    · exact ⟨rfl, Or.inr (hstate ▸ .deliverAccepted)⟩
    · exact ⟨rfl, Or.inr (hstate ▸ .deliver)⟩
  · exact .refl row

theorem persistRow_steps (transferId : String) (endpoints : List Endpoint) (row : TransferRow) :
    row.Steps (persistRow transferId endpoints row) := by
  unfold persistRow
  split_ifs
  · exact ⟨rfl, Or.inl rfl⟩
  · exact .refl row

/-- A row is still there after a step, in the same or in a next state. -/
theorem TableStep.steps {now : Timestamp} {rows rows' : List TransferRow} {op : Op}
    {answer : op.Answer} (h : TableStep now rows op answer rows') :
    ∀ row ∈ rows, ∃ row' ∈ rows', row.Steps row' := by
  intro row hrow
  cases h with
  | quiet _ => exact ⟨row, hrow, .refl row⟩
  | failed _ => exact ⟨row, hrow, .refl row⟩
  | insert t _ => exact ⟨row, List.mem_append_left _ hrow, .refl row⟩
  | accept transferId => exact ⟨_, List.mem_map_of_mem hrow, acceptRow_steps now transferId row⟩
  | deliver transferId => exact ⟨_, List.mem_map_of_mem hrow, deliverRow_steps now transferId row⟩
  | persist transferId endpoints _ =>
    exact ⟨_, List.mem_map_of_mem hrow, persistRow_steps transferId endpoints row⟩

/-- The update that marks a transfer as accepted took effect. -/
def Accepts (transferId : String) (e : Library.Event effects) : Prop :=
  ∃ updated : ℕ, updated ≠ 0 ∧ e = ⟨.markAccepted transferId, .ok updated⟩

/-- The update that marks a transfer as delivered took effect. -/
def Delivers (transferId : String) (e : Library.Event effects) : Prop :=
  ∃ updated : ℕ, updated ≠ 0 ∧ e = ⟨.markDelivered transferId, .ok updated⟩

/-- The row was inserted. -/
def Creates (row : TransferRow) (e : Library.Event effects) : Prop :=
  ∃ t, e = ⟨.insertTransfer t, .ok row⟩

/-- The table of transfers, as the operations that took effect on it left it. -/
structure Table (trace : Trace) (rows : List TransferRow) : Prop where
  nodup : (rows.map (·.transferId)).Nodup
  origin : ∀ row ∈ rows, ∃ e ∈ trace, ∃ row₀, Creates row₀ e.event ∧ row.fixed = row₀.fixed ∧
    (row₀.state = .rejected → row.state = .rejected)
  kept : ∀ e ∈ trace, ∀ row₀, Creates row₀ e.event → ∃ row ∈ rows, row.fixed = row₀.fixed
  createdOnce : trace.Pairwise fun e e' => ∀ row row', Creates row e.event → Creates row' e'.event →
    row.transferId ≠ row'.transferId
  touched : ∀ e ∈ trace, ∀ transferId, Accepts transferId e.event ∨ Delivers transferId e.event →
    ∃ row ∈ rows, row.transferId = transferId
  accepted : ∀ row ∈ rows,
    row.acceptedAt.isSome ↔ ∃ e ∈ trace, Accepts row.transferId e.event
  delivered : ∀ row ∈ rows,
    row.state = .delivered ↔ ∃ e ∈ trace, Delivers row.transferId e.event
  deliveredAt : ∀ row ∈ rows, row.deliveredAt.isSome ↔ row.state = .delivered
  deliveredOnce : trace.Pairwise fun e e' => ∀ transferId, Delivers transferId e.event →
    ¬Delivers transferId e'.event

section Table

variable {trace : Trace} {rows : List TransferRow}

theorem table_nil : Table [] [] := by
  constructor <;> simp

theorem Table.unique (h : Table trace rows) {row row' : TransferRow} (hr : row ∈ rows)
    (hr' : row' ∈ rows) (hid : row.transferId = row'.transferId) : row = row' :=
  List.inj_on_of_nodup_map h.nodup hr hr' hid

/-- A statement that rewrites rows one by one and inserts none. -/
theorem Table.update (h : Table trace rows) (x : Entry effects State Request)
    {f : TransferRow → TransferRow} (hsteps : ∀ row : TransferRow, row.Steps (f row))
    (hcreates : ∀ row, ¬Creates row x.event)
    (htouched : ∀ transferId, Accepts transferId x.event ∨ Delivers transferId x.event →
      ∃ row ∈ rows, row.transferId = transferId)
    (haccepted : ∀ row ∈ rows, (f row).acceptedAt.isSome ↔
      row.acceptedAt.isSome ∨ Accepts row.transferId x.event)
    (hdelivered : ∀ row ∈ rows, (f row).state = .delivered ↔
      row.state = .delivered ∨ Delivers row.transferId x.event)
    (hdeliveredAt : ∀ row ∈ rows, (f row).deliveredAt.isSome ↔ (f row).state = .delivered)
    (hopen : ∀ row ∈ rows, Delivers row.transferId x.event → row.state ≠ .delivered) :
    Table (trace ++ [x]) (rows.map f) := by
  have hfixed (row : TransferRow) : (f row).fixed = row.fixed := (hsteps row).fixed
  have hid (row : TransferRow) : (f row).transferId = row.transferId :=
    TransferRow.transferId_of_fixed (hfixed row)
  constructor
  case nodup =>
    simpa [Function.comp_def, hid] using h.nodup
  case origin =>
    intro row hrow
    obtain ⟨old, hold, rfl⟩ := List.mem_map.mp hrow
    obtain ⟨e, he, row₀, hcreated, heq, hrejected⟩ := h.origin old hold
    refine ⟨e, List.mem_append_left _ he, row₀, hcreated, (hfixed old).trans heq, ?_⟩
    exact fun hstate => (hsteps old).rejected (hrejected hstate)
  case kept =>
    intro e he row₀ hcreated
    rcases List.mem_append.mp he with he | he
    · obtain ⟨row, hrow, heq⟩ := h.kept e he row₀ hcreated
      exact ⟨f row, List.mem_map_of_mem hrow, (hfixed row).trans heq⟩
    · rw [List.mem_singleton.mp he] at hcreated
      exact absurd hcreated (hcreates row₀)
  case createdOnce =>
    refine pairwise_snoc.mpr ⟨h.createdOnce, ?_⟩
    intro e _ row row' _ hcreated
    exact absurd hcreated (hcreates row')
  case touched =>
    intro e he transferId htouch
    have hrow : ∃ row ∈ rows, row.transferId = transferId := by
      rcases List.mem_append.mp he with he | he
      · exact h.touched e he transferId htouch
      · rw [List.mem_singleton.mp he] at htouch
        exact htouched transferId htouch
    obtain ⟨row, hrow, rfl⟩ := hrow
    exact ⟨f row, List.mem_map_of_mem hrow, hid row⟩
  case accepted =>
    intro row hrow
    obtain ⟨old, hold, rfl⟩ := List.mem_map.mp hrow
    rw [exists_mem_snoc, hid, ← h.accepted old hold]
    exact haccepted old hold
  case delivered =>
    intro row hrow
    obtain ⟨old, hold, rfl⟩ := List.mem_map.mp hrow
    rw [exists_mem_snoc, hid, ← h.delivered old hold]
    exact hdelivered old hold
  case deliveredAt =>
    intro row hrow
    obtain ⟨old, hold, rfl⟩ := List.mem_map.mp hrow
    exact hdeliveredAt old hold
  case deliveredOnce =>
    refine pairwise_snoc.mpr ⟨h.deliveredOnce, ?_⟩
    intro e he transferId hdel hnew
    obtain ⟨row, hrow, rfl⟩ := h.touched e he transferId (Or.inr hdel)
    exact hopen row hrow hnew ((h.delivered row hrow).mpr ⟨e, he, hdel⟩)

/-- An event that took no effect on the table. -/
theorem Table.skip (h : Table trace rows) (x : Entry effects State Request)
    (hcreates : ∀ row, ¬Creates row x.event) (haccepts : ∀ transferId, ¬Accepts transferId x.event)
    (hdelivers : ∀ transferId, ¬Delivers transferId x.event) : Table (trace ++ [x]) rows := by
  have hupdate := h.update x (f := id) (fun row => .refl row) hcreates
    (fun transferId ht => absurd ht (by simp [haccepts, hdelivers])) (by simp [haccepts])
    (by simp [hdelivers]) h.deliveredAt (fun _ _ hd => absurd hd (hdelivers _))
  simpa using hupdate

theorem Table.insert (h : Table trace rows) (x : Entry effects State Request) {t : InsertTransfer}
    {row : TransferRow} (hx : x.event = ⟨.insertTransfer t, .ok row⟩)
    (hfresh : ∀ old ∈ rows, old.transferId ≠ row.transferId)
    (hstate : row.state ≠ .delivered) (haccepted : row.acceptedAt = none)
    (hdelivered : row.deliveredAt = none) : Table (trace ++ [x]) (rows ++ [row]) := by
  have hcreates (row' : TransferRow) : Creates row' x.event ↔ row' = row := by
    rw [hx]
    constructor
    · rintro ⟨t', ht⟩
      cases ht
      rfl
    · rintro rfl
      exact ⟨t, rfl⟩
  have hquiet (transferId : String) :
      ¬Accepts transferId x.event ∧ ¬Delivers transferId x.event := by
    rw [hx]
    constructor <;> rintro ⟨n, -, hn⟩ <;> cases hn
  have hnew (e : Entry effects State Request) (he : e ∈ trace) :
      ¬Accepts row.transferId e.event ∧ ¬Delivers row.transferId e.event := by
    constructor
    · intro hacc
      obtain ⟨old, hold, hid⟩ := h.touched e he _ (Or.inl hacc)
      exact hfresh old hold hid
    · intro hdel
      obtain ⟨old, hold, hid⟩ := h.touched e he _ (Or.inr hdel)
      exact hfresh old hold hid
  constructor
  case nodup =>
    rw [List.map_append, List.map_singleton, List.nodup_append]
    refine ⟨h.nodup, List.nodup_singleton _, ?_⟩
    intro id hid id' hid'
    obtain ⟨old, hold, rfl⟩ := List.mem_map.mp hid
    rw [List.mem_singleton.mp hid']
    exact hfresh old hold
  case origin =>
    intro r hr
    rcases List.mem_append.mp hr with hr | hr
    · obtain ⟨e, he, row₀, hcreated, heq⟩ := h.origin r hr
      exact ⟨e, List.mem_append_left _ he, row₀, hcreated, heq⟩
    · rw [List.mem_singleton.mp hr]
      exact ⟨x, by simp, row, (hcreates row).mpr rfl, rfl, id⟩
  case kept =>
    intro e he row₀ hcreated
    rcases List.mem_append.mp he with he | he
    · obtain ⟨r, hr, heq⟩ := h.kept e he row₀ hcreated
      exact ⟨r, List.mem_append_left _ hr, heq⟩
    · rw [List.mem_singleton.mp he, hcreates] at hcreated
      exact ⟨row, by simp, by rw [hcreated]⟩
  case createdOnce =>
    refine pairwise_snoc.mpr ⟨h.createdOnce, ?_⟩
    intro e he row₀ row' hold hcreated
    rw [(hcreates row').mp hcreated]
    obtain ⟨r, hr, heq⟩ := h.kept e he row₀ hold
    rw [← TransferRow.transferId_of_fixed heq]
    exact hfresh r hr
  case touched =>
    intro e he transferId htouch
    rcases List.mem_append.mp he with he | he
    · obtain ⟨r, hr, hid⟩ := h.touched e he transferId htouch
      exact ⟨r, List.mem_append_left _ hr, hid⟩
    · rw [List.mem_singleton.mp he] at htouch
      exact absurd htouch (by simp [hquiet])
  case accepted =>
    intro r hr
    rw [exists_mem_snoc]
    rcases List.mem_append.mp hr with hr | hr
    · simp [h.accepted r hr, hquiet]
    · rw [List.mem_singleton.mp hr]
      simpa [haccepted, hquiet] using fun e he => (hnew e he).1
  case delivered =>
    intro r hr
    rw [exists_mem_snoc]
    rcases List.mem_append.mp hr with hr | hr
    · simp [h.delivered r hr, hquiet]
    · rw [List.mem_singleton.mp hr]
      simpa [hstate, hquiet] using fun e he => (hnew e he).2
  case deliveredAt =>
    intro r hr
    rcases List.mem_append.mp hr with hr | hr
    · exact h.deliveredAt r hr
    · rw [List.mem_singleton.mp hr]
      simp [hdelivered, hstate]
  case deliveredOnce =>
    refine pairwise_snoc.mpr ⟨h.deliveredOnce, ?_⟩
    intro e _ transferId _
    exact (hquiet transferId).2

theorem accepts_iff {id transferId : String} {n : ℕ} :
    Accepts id ⟨.markAccepted transferId, .ok n⟩ ↔ id = transferId ∧ n ≠ 0 := by
  constructor
  · rintro ⟨n', hn, he⟩
    cases he
    exact ⟨rfl, hn⟩
  · rintro ⟨rfl, hn⟩
    exact ⟨n, hn, rfl⟩

theorem delivers_iff {id transferId : String} {n : ℕ} :
    Delivers id ⟨.markDelivered transferId, .ok n⟩ ↔ id = transferId ∧ n ≠ 0 := by
  constructor
  · rintro ⟨n', hn, he⟩
    cases he
    exact ⟨rfl, hn⟩
  · rintro ⟨rfl, hn⟩
    exact ⟨n, hn, rfl⟩

theorem acceptable_iff {transferId : String} {row : TransferRow} :
    acceptable transferId row = true ↔
      row.transferId = transferId ∧ row.state = .readyForPickup := by
  simp [acceptable]

theorem deliverable_iff {transferId : String} {row : TransferRow} :
    deliverable transferId row = true ↔ row.transferId = transferId ∧
      (row.state = .accepted ∨ row.state = .readyForPickup) := by
  simp [deliverable]

/-- A guarded update of one transfer matches its row or nothing. -/
theorem Table.count_ne_zero (h : Table trace rows) {guard : TransferRow → Bool}
    {transferId : String} (hguard : ∀ row, guard row = true → row.transferId = transferId)
    {row : TransferRow} (hr : row ∈ rows) :
    (row.transferId = transferId ∧ rows.countP guard ≠ 0) ↔ guard row = true := by
  rw [← Nat.pos_iff_ne_zero, List.countP_pos_iff]
  constructor
  · rintro ⟨hid, row', hr', hg⟩
    rwa [h.unique hr hr' (hid.trans (hguard row' hg).symm)]
  · intro hg
    exact ⟨hguard row hg, row, hr, hg⟩

theorem Table.accept (h : Table trace rows) (x : Entry effects State Request) (now : Timestamp)
    {transferId : String}
    (hx : x.event = ⟨.markAccepted transferId, .ok (rows.countP (acceptable transferId))⟩) :
    Table (trace ++ [x]) (rows.map (acceptRow now transferId)) := by
  have hguard (row : TransferRow) (hg : acceptable transferId row = true) :=
    (acceptable_iff.mp hg).1
  have hdelivers (id : String) : ¬Delivers id x.event := by
    rw [hx]
    rintro ⟨n, -, hn⟩
    cases hn
  have haccepts {row : TransferRow} (hr : row ∈ rows) :
      Accepts row.transferId x.event ↔ acceptable transferId row = true := by
    rw [hx, accepts_iff]
    exact h.count_ne_zero hguard hr
  refine h.update x (acceptRow_steps now transferId) ?_ ?_ ?_ ?_ ?_ ?_
  · rw [hx]
    rintro row ⟨t, ht⟩
    cases ht
  · rintro id (hacc | hdel)
    · rw [hx, accepts_iff, ← Nat.pos_iff_ne_zero, List.countP_pos_iff] at hacc
      obtain ⟨rfl, row, hr, hg⟩ := hacc
      exact ⟨row, hr, hguard row hg⟩
    · exact absurd hdel (hdelivers id)
  · intro row hr
    rw [haccepts hr]
    unfold acceptRow
    split_ifs with hg <;> simp [hg]
  · intro row hr
    unfold acceptRow
    split_ifs with hg
    · simp [(acceptable_iff.mp hg).2, hdelivers]
    · simp [hdelivers]
  · intro row hr
    unfold acceptRow
    split_ifs with hg
    · have hready := (acceptable_iff.mp hg).2
      simpa [hready] using h.deliveredAt row hr
    · exact h.deliveredAt row hr
  · exact fun row _ hdel => absurd hdel (hdelivers _)

theorem Table.deliver (h : Table trace rows) (x : Entry effects State Request) (now : Timestamp)
    {transferId : String}
    (hx : x.event = ⟨.markDelivered transferId, .ok (rows.countP (deliverable transferId))⟩) :
    Table (trace ++ [x]) (rows.map (deliverRow now transferId)) := by
  have hguard (row : TransferRow) (hg : deliverable transferId row = true) :=
    (deliverable_iff.mp hg).1
  have haccepts (id : String) : ¬Accepts id x.event := by
    rw [hx]
    rintro ⟨n, -, hn⟩
    cases hn
  have hdelivers {row : TransferRow} (hr : row ∈ rows) :
      Delivers row.transferId x.event ↔ deliverable transferId row = true := by
    rw [hx, delivers_iff]
    exact h.count_ne_zero hguard hr
  refine h.update x (deliverRow_steps now transferId) ?_ ?_ ?_ ?_ ?_ ?_
  · rw [hx]
    rintro row ⟨t, ht⟩
    cases ht
  · rintro id (hacc | hdel)
    · exact absurd hacc (haccepts id)
    · rw [hx, delivers_iff, ← Nat.pos_iff_ne_zero, List.countP_pos_iff] at hdel
      obtain ⟨rfl, row, hr, hg⟩ := hdel
      exact ⟨row, hr, hguard row hg⟩
  · intro row hr
    unfold deliverRow
    split_ifs with hg <;> simp [haccepts]
  · intro row hr
    rw [hdelivers hr]
    unfold deliverRow
    split_ifs with hg <;> simp [hg]
  · intro row hr
    unfold deliverRow
    split_ifs with hg
    · simp
    · exact h.deliveredAt row hr
  · intro row hr hdel
    rcases (deliverable_iff.mp ((hdelivers hr).mp hdel)).2 with hstate | hstate <;> simp [hstate]

theorem Table.persist (h : Table trace rows) (x : Entry effects State Request)
    {transferId : String} {endpoints : List Endpoint} {n : ℕ}
    (hx : x.event = ⟨.persistReachableAt transferId endpoints, .ok n⟩) :
    Table (trace ++ [x]) (rows.map (persistRow transferId endpoints)) := by
  have hnot : (∀ row, ¬Creates row x.event) ∧ (∀ id, ¬Accepts id x.event) ∧
      ∀ id, ¬Delivers id x.event := by
    rw [hx]
    refine ⟨?_, ?_, ?_⟩
    · rintro row ⟨t, ht⟩
      cases ht
    · rintro id ⟨n, -, hn⟩
      cases hn
    · rintro id ⟨n, -, hn⟩
      cases hn
  refine h.update x (persistRow_steps transferId endpoints) hnot.1 ?_ ?_ ?_
    ?_ ?_
  · exact fun id ht => absurd ht (by simp [hnot])
  · intro row _
    unfold persistRow
    split_ifs <;> simp [hnot]
  · intro row _
    unfold persistRow
    split_ifs <;> simp [hnot]
  · intro row hr
    unfold persistRow
    split_ifs <;> exact h.deliveredAt row hr
  · exact fun _ _ hd => absurd hd (hnot.2.2 _)

/-- Every operation keeps the invariant, if rows are inserted in one of the two first states. -/
theorem Table.step (h : Table trace rows) {rows' : List TransferRow}
    (x : Entry effects State Request) (now : Timestamp)
    (hstep : TableStep now rows x.event.op x.event.answer rows')
    (hinsert : ∀ t, x.event.op = .insertTransfer t →
      t.state = .readyForPickup ∨ t.state = .rejected) : Table (trace ++ [x]) rows' := by
  obtain ⟨task, request, before, op, answer⟩ := x
  dsimp only at hstep hinsert
  cases hstep with
  | quiet hop =>
    refine h.skip _ ?_ ?_ ?_
    · rintro row ⟨t, ht⟩
      cases ht
      exact hop rfl
    · rintro id ⟨n, -, hn⟩
      cases hn
      exact hop rfl
    · rintro id ⟨n, -, hn⟩
      cases hn
      exact hop rfl
  | failed hfailed =>
    refine h.skip _ ?_ ?_ ?_
    · rintro row ⟨t, ht⟩
      cases ht
      exact hfailed
    · rintro id ⟨n, -, hn⟩
      cases hn
      exact hfailed
    · rintro id ⟨n, -, hn⟩
      cases hn
      exact hfailed
  | insert t hfresh =>
    refine h.insert _ rfl hfresh ?_ rfl rfl
    rcases hinsert t rfl with ht | ht <;> simp [ht]
  | accept transferId => exact h.accept _ now rfl
  | deliver transferId => exact h.deliver _ now rfl
  | persist transferId endpoints n => exact h.persist _ rfl

end Table

/-! ## Whole runs -/

section Runs

variable (env : Env) (labels : List Label)

/-- The rule for invariants of the server's trace and state. -/
theorem run_invariant {J : Trace → State → Prop} (hinit : J [] {})
    (hperform : ∀ trace s i r op c, permits env r (Pool.eventsOf trace i) op → J trace s →
      J (trace ++ [⟨i, r, s, ⟨op, (exec env s op c).1⟩⟩]) (exec env s op c).2)
    (hclock : ∀ trace s t, J trace s → J trace ((semantics env).environment t s)) :
    J (run env labels).trace (run env labels).shared :=
  Pool.run_trace_induction (C := fun _ _ => True) (handler_spec env) hinit
    (fun w i c r op _ _ hop _ hJ => hperform w.trace w.shared i r op c hop hJ)
    (fun w t _ hJ => hclock w.trace w.shared t hJ) labels (Pool.along_true _ _ _)

theorem run_table : Table (run env labels).trace (run env labels).shared.db.transfers := by
  refine run_invariant env labels (J := fun trace s => Table trace s.db.transfers) table_nil ?_
    fun _ _ _ h => h
  intro trace s i r op c hop h
  refine h.step _ s.dbNow (exec_tableStep env s op c) ?_
  rintro t rfl
  obtain ⟨req, -, hadmitted⟩ := hop
  exact hadmitted.state

/-- One label takes every row along the state machine. -/
theorem run_steps (l : Label) : ∀ row ∈ (run env labels).shared.db.transfers,
    ∃ row' ∈ (run env (labels ++ [l])).shared.db.transfers, row.Steps row' := by
  unfold run
  rw [Pool.run_snoc]
  generalize Pool.run (semantics env) {} labels = w
  have hstep := Pool.next_step (semantics env) w l
  generalize w.next (semantics env) l = w' at hstep
  intro row hrow
  cases hstep with
  | @perform i c r op k _ => exact (exec_tableStep env w.shared op c).steps row hrow
  | _ => exact ⟨row, hrow, .refl row⟩

/-- A row keeps its fixed columns, and a final state, for the rest of the run. -/
theorem run_evolves (rest : List Label) : ∀ row ∈ (run env labels).shared.db.transfers,
    ∃ row' ∈ (run env (labels ++ rest)).shared.db.transfers, row'.fixed = row.fixed ∧
      (row.state = .rejected ∨ row.state = .delivered → row'.state = row.state) := by
  intro row hrow
  induction rest using List.reverseRecOn with
  | nil => exact ⟨row, by simpa using hrow, rfl, fun _ => rfl⟩
  | append_singleton rest l ih =>
    obtain ⟨mid, hmid, hfixed, hfinal⟩ := ih
    rw [← List.append_assoc]
    obtain ⟨row', hrow', hstep⟩ := run_steps env (labels ++ rest) l mid hmid
    refine ⟨row', hrow', hstep.fixed.trans hfixed, ?_⟩
    intro hrowState
    have hmidState := hfinal hrowState
    rcases hstep.state with hsame | hmove
    · exact hsame.trans hmidState
    · rw [hmidState] at hmove
      rcases hrowState with hs | hs <;> rw [hs] at hmove <;> cases hmove

/-- An acknowledged transfer was delivered by that very task. -/
theorem ack_delivers {i : ℕ} {t : Task effects Request ApiError Response} {transferId : String}
    {req : RecipientReceiptRequest} {response : Response}
    (ht : (run env labels).tasks[i]? = some t) (hreq : t.request = .ackTransfer transferId req)
    (hout : (run env labels).outcome i = some (.ok response)) :
    ∃ e ∈ (run env labels).trace, e.task = i ∧ Delivers transferId e.event := by
  have hensures := (Pool.run_conforms (semantics env) {} labels).outcome_spec (handler_spec env)
    ht hout
  rw [hreq] at hensures
  obtain ⟨-, updated, hne, hsaw, -⟩ := hensures
  obtain ⟨e, he, htask, hevent⟩ := Pool.mem_eventsOf.mp hsaw
  exact ⟨e, he, htask, updated, hne, hevent⟩

/-- Two accepted acknowledgements of one transfer are the same request. -/
theorem ack_once {i j : ℕ} {ti tj : Task effects Request ApiError Response}
    {transferId : String} {req req' : RecipientReceiptRequest} {response response' : Response}
    (hti : (run env labels).tasks[i]? = some ti) (htj : (run env labels).tasks[j]? = some tj)
    (hreq : ti.request = .ackTransfer transferId req)
    (hreq' : tj.request = .ackTransfer transferId req')
    (hout : (run env labels).outcome i = some (.ok response))
    (hout' : (run env labels).outcome j = some (.ok response')) : i = j := by
  obtain ⟨e, he, hei, hdel⟩ := ack_delivers env labels hti hreq hout
  obtain ⟨e', he', hej, hdel'⟩ := ack_delivers env labels htj hreq' hout'
  by_contra hij
  have hne : e ≠ e' := by
    rintro rfl
    exact hij (hei.symm.trans hej)
  rcases pairwise_mem (run_table env labels).deliveredOnce he he' hne with honce | honce
  · exact honce transferId hdel hdel'
  · exact honce transferId hdel' hdel

/-- In every run each row moves along the state machine only, keeps its other columns, and is
acknowledged at most once; the lifecycle columns say what took effect. -/
theorem transfer_lifecycle :
    (∀ l, ∀ row ∈ (run env labels).shared.db.transfers,
      ∃ row' ∈ (run env (labels ++ [l])).shared.db.transfers,
        row'.fixed = row.fixed ∧ (row'.state = row.state ∨ row.state.Moves row'.state)) ∧
    (∀ rest, ∀ row ∈ (run env labels).shared.db.transfers,
      row.state = .rejected ∨ row.state = .delivered →
        ∃ row' ∈ (run env (labels ++ rest)).shared.db.transfers,
          row'.fixed = row.fixed ∧ row'.state = row.state) ∧
    (∀ i j ti tj transferId req req' out out', (run env labels).tasks[i]? = some ti →
      (run env labels).tasks[j]? = some tj → ti.request = .ackTransfer transferId req →
      tj.request = .ackTransfer transferId req' → (run env labels).outcome i = some (.ok out) →
      (run env labels).outcome j = some (.ok out') → i = j) ∧
    ((run env labels).shared.db.transfers.map (·.transferId)).Nodup ∧
    ∀ row ∈ (run env labels).shared.db.transfers,
      (row.acceptedAt.isSome ↔
        ∃ e ∈ (run env labels).trace, Accepts row.transferId e.event) ∧
      (row.deliveredAt.isSome ↔ row.state = .delivered) := by
  have htable := run_table env labels
  refine ⟨?_, ?_, ?_, htable.nodup, fun row hrow =>
    ⟨htable.accepted row hrow, htable.deliveredAt row hrow⟩⟩
  · intro l row hrow
    obtain ⟨row', hrow', hstep⟩ := run_steps env labels l row hrow
    exact ⟨row', hrow', hstep.fixed, hstep.state⟩
  · intro rest row hrow hfinal
    obtain ⟨row', hrow', hfixed, hstate⟩ := run_evolves env labels rest row hrow
    exact ⟨row', hrow', hfixed, hstate hfinal⟩
  · intro i j ti tj transferId req req' out out' hti htj hreqi hreqj houti houtj
    exact ack_once env labels hti htj hreqi hreqj houti houtj

end Runs

end AgentExchange.ControlPlane
