import AgentExchange.ControlPlane.Admission
import AgentExchange.ControlPlane.Delivery

/-!
# Which bytes the control plane keeps

The bytes of an upload are stored before their row exists and deleted after it is
delivered. Between requests a blob is stored exactly for the rows that still can be
downloaded, as long as every identifier is fresh, a row whose bytes are stored gets
inserted, and an acknowledgement whose bytes are still stored comes to deleting them.
-/
namespace AgentExchange.ControlPlane

open Library

/-- The bytes stored under an identifier. -/
def State.held (s : State) (transferId : String) : Option Bytes := s.blobs.lookup transferId

/-- The transfer can still be downloaded. -/
def TransferRow.Open (row : TransferRow) : Prop :=
  row.state = .readyForPickup ∨ row.state = .accepted

/-- Blobs and open rows of uploads correspond, with digest and size. Only the `blob_hex` branch of
`create_transfer` sets the digest. -/
structure RetentionMatches (env : Env) (s : State) : Prop where
  stored : ∀ transferId, (s.held transferId).isSome ↔
    ∃ row ∈ s.db.transfers, row.transferId = transferId ∧ row.blobSha256.isSome ∧ row.Open
  digest : ∀ transferId blob, s.held transferId = some blob →
    ∀ row ∈ s.db.transfers, row.transferId = transferId →
      row.blobSha256 = some (hexEncode (env.sha256 blob)) ∧
      (blob.length < 2 ^ 63 → row.sizeBytes.toInt = blob.length)

/-- Bytes are stored under a fresh identifier only, no other row is inserted under an identifier
with bytes, and no operation about stored bytes fails. -/
def settlesBlob (s : State) (c : Choice) : Op → Bool
  | .blobPut transferId _ => c.failure.isSome ||
    ((s.held transferId).isNone && s.db.transfers.all fun row => row.transferId ≠ transferId)
  | .insertTransfer t =>
    if t.blobSha256.isSome then c.failure.isNone else (s.held t.transferId).isNone
  | op => op.concerns.all fun transferId => (s.held transferId).isNone || c.failure.isNone

/-- The performed operation meets this condition, and no task is dropped that still has to do with
stored bytes. -/
def settlesBlobs (w : World) : Label → Bool
  | .step i c => (w.pending i).all (settlesBlob w.shared c)
  | .cancel i => ((w.pending i).bind Op.concerns).all fun transferId =>
      (w.shared.held transferId).isNone
  | _ => true

def SettlesBlobs (w : World) (l : Label) : Prop := settlesBlobs w l = true

instance (w : World) (l : Label) : Decidable (SettlesBlobs w l) :=
  inferInstanceAs (Decidable (_ = true))

/-! ## The blob store as a map -/

section Held

variable {env : Env} {s : State} {c : Choice} {transferId : String}

theorem lookup_cons_of_ne {id key : String} (h : id ≠ key) (bytes : Bytes)
    (blobs : List (String × Bytes)) : ((key, bytes) :: blobs).lookup id = blobs.lookup id := by
  rw [List.lookup_cons, beq_eq_false_iff_ne.mpr h]

theorem lookup_filter_ne (blobs : List (String × Bytes)) :
    (fun id => (blobs.filter fun b => b.1 ≠ transferId).lookup id) =
      Function.update (fun id => blobs.lookup id) transferId none := by
  funext id
  induction blobs with
  | nil => simp [Function.update_apply]
  | cons b blobs ih =>
    obtain ⟨key, bytes⟩ := b
    simp only [Function.update_apply] at ih ⊢
    by_cases hkey : key = transferId
    · rw [List.filter_cons_of_neg (by simpa using hkey), ih]
      split_ifs with hid
      · rfl
      · rw [lookup_cons_of_ne (hkey ▸ hid)]
    · rw [List.filter_cons_of_pos (by simpa using hkey)]
      by_cases hid : id = key
      · simp [hid, hkey]
      · rw [lookup_cons_of_ne hid, lookup_cons_of_ne hid, ih]

theorem held_blobPut {blob : Bytes} :
    (exec env s (.blobPut transferId blob) c).2.held =
      if c.failure = none then Function.update s.held transferId (some blob) else s.held := by
  rcases State.storeBlob_cases s c ((transferId, blob) :: s.blobs.filter fun b => b.1 ≠ transferId)
    with ⟨e, hc, he⟩ | ⟨hc, he⟩
  · simp only [exec, he, hc, reduceCtorEq, if_false]
  · simp only [exec, he, hc, if_true]
    funext id
    have hrest := congrFun (@lookup_filter_ne transferId s.blobs) id
    by_cases hid : id = transferId
    · simp [State.held, hid]
    · rw [Function.update_of_ne hid] at hrest ⊢
      exact (lookup_cons_of_ne hid _ _).trans hrest

theorem held_blobDelete :
    (exec env s (.blobDelete transferId) c).2.held =
      if c.failure = none then Function.update s.held transferId none else s.held := by
  rcases State.storeBlob_cases s c (s.blobs.filter fun b => b.1 ≠ transferId)
    with ⟨e, hc, he⟩ | ⟨hc, he⟩
  · simp only [exec, he, hc, reduceCtorEq, if_false]
  · simp only [exec, he, hc, if_true]
    exact lookup_filter_ne s.blobs

theorem held_frame {op : Op} (h : op.writes ≠ some .blobs) : (exec env s op c).2.held = s.held := by
  funext id
  rw [State.held, State.held, exec_blobs_frame h]

end Held

/-! ## The invariant -/

/-- The operation records the delivery of the transfer or deletes its bytes. -/
def Op.Settles (op : Op) (transferId : String) : Prop :=
  op.records = some transferId ∨ op = .blobDelete transferId

/-- Stored bytes and the tasks that still have to do with them. -/
structure Retained (env : Env) (pending : ℕ → Option Op) (rows : List TransferRow)
    (held : String → Option Bytes) : Prop where
  owed : ∀ id blob, held id = some blob →
    (∃ i t, pending i = some (.insertTransfer t) ∧ t.Stores env id blob) ∨
    (∃ row ∈ rows, row.Stores env id blob ∧ row.Open) ∨
    ∃ i op, pending i = some op ∧ op.Settles id
  stored : ∀ row ∈ rows, row.blobSha256.isSome → row.Open →
    ∃ blob, held row.transferId = some blob ∧ row.Stores env row.transferId blob
  inserting : ∀ i t, pending i = some (.insertTransfer t) → t.blobSha256.isSome →
    t.state = .readyForPickup ∧
      ∃ blob, held t.transferId = some blob ∧ t.Stores env t.transferId blob
  fresh : ∀ i t, pending i = some (.insertTransfer t) → t.blobSha256.isSome →
    ∀ row ∈ rows, row.transferId ≠ t.transferId
  single : ∀ i j t t', pending i = some (.insertTransfer t) → pending j = some (.insertTransfer t') →
    t.blobSha256.isSome → t'.blobSha256.isSome → t.transferId = t'.transferId → i = j
  ending : ∀ i op id, pending i = some op → op.Settles id →
    ∃ row ∈ rows, row.transferId = id ∧ row.state = .delivered
  object : ∀ i event, pending i = some (.auditAppend event) → event.kind = .transferDelivered →
    Audit.isObject event.payload = true

section Retained

variable {env : Env} {pending : ℕ → Option Op} {rows : List TransferRow}
  {held : String → Option Bytes} {i : ℕ} {next : Option Op}

theorem Op.Settles.concerns {op : Op} {id : String} (h : op.Settles id) : op.concerns = some id := by
  rcases h with h | rfl
  · obtain ⟨event, rfl, -, -⟩ := Op.records_eq_some h
    exact h
  · rfl

theorem InsertTransfer.Stores.isSome {t : InsertTransfer} {id : String} {blob : Bytes}
    (h : t.Stores env id blob) : t.blobSha256.isSome := by
  rw [h.sha256]
  rfl

theorem InsertTransfer.Stores.concerns {t : InsertTransfer} {id : String} {blob : Bytes}
    (h : t.Stores env id blob) : (Op.insertTransfer t).concerns = some id := by
  rw [← h.transferId]
  exact if_pos h.isSome

theorem concerns_insertTransfer {t : InsertTransfer} (h : t.blobSha256.isSome) :
    (Op.insertTransfer t).concerns = some t.transferId := if_pos h

theorem concerns_delivered {event : Audit.Event} (h : event.kind = .transferDelivered) :
    (Op.auditAppend event).concerns = some event.subject := if_pos h

/-- A task whose next operation concerns some transfer was not touched by a quiet update. -/
theorem pending_of_update {j : ℕ} {op : Op} {id : String} (hnew : next.bind Op.concerns = none)
    (hj : Function.update pending i next j = some op) (hop : op.concerns = some id) :
    j ≠ i ∧ pending j = some op := by
  by_cases hji : j = i
  · rw [hji, Function.update_self] at hj
    simp [hj, hop] at hnew
  · exact ⟨hji, by rwa [Function.update_of_ne hji] at hj⟩

theorem retained_nil : Retained env (fun _ => none) [] (fun _ => none) := by
  constructor <;> simp

/-- A task turns to something that concerns no transfer; no bytes are stored for what it gives
up. -/
theorem Retained.turn (h : Retained env pending rows held)
    (hold : ∀ id, (pending i).bind Op.concerns = some id → held id = none)
    (hnew : next.bind Op.concerns = none) :
    Retained env (Function.update pending i next) rows held := by
  have hkeep {j : ℕ} {op : Op} {id : String} {blob : Bytes} (hj : pending j = some op)
      (hop : op.concerns = some id) (hheld : held id = some blob) :
      Function.update pending i next j = some op := by
    have hji : j ≠ i := by
      rintro rfl
      rw [hold id (by rw [hj]; exact hop)] at hheld
      cases hheld
    rwa [Function.update_of_ne hji]
  constructor
  · intro id blob hheld
    rcases h.owed id blob hheld with ⟨j, t, hj, ht⟩ | hrow | ⟨j, op, hj, hop⟩
    · exact Or.inl ⟨j, t, hkeep hj ht.concerns hheld, ht⟩
    · exact Or.inr (Or.inl hrow)
    · exact Or.inr (Or.inr ⟨j, op, hkeep hj hop.concerns hheld, hop⟩)
  · exact h.stored
  · intro j t hj ht
    exact h.inserting j t (pending_of_update hnew hj (concerns_insertTransfer ht)).2 ht
  · intro j t hj ht
    exact h.fresh j t (pending_of_update hnew hj (concerns_insertTransfer ht)).2 ht
  · intro j k t t' hj hk ht ht'
    exact h.single j k t t' (pending_of_update hnew hj (concerns_insertTransfer ht)).2
      (pending_of_update hnew hk (concerns_insertTransfer ht')).2 ht ht'
  · intro j op id hj hop
    exact h.ending j op id (pending_of_update hnew hj hop.concerns).2 hop
  · intro j event hj hkind
    exact h.object j event (pending_of_update hnew hj (concerns_delivered hkind)).2 hkind

/-- A statement that rewrites rows and leaves open rows open. -/
theorem Retained.map (h : Retained env pending rows held) {f : TransferRow → TransferRow}
    (hfixed : ∀ row : TransferRow, (f row).fixed = row.fixed)
    (hopen : ∀ row : TransferRow, (f row).Open ↔ row.Open)
    (hdelivered : ∀ row : TransferRow, row.state = .delivered → (f row).state = .delivered) :
    Retained env pending (rows.map f) held := by
  have hid (row : TransferRow) : (f row).transferId = row.transferId :=
    TransferRow.transferId_of_fixed (hfixed row)
  have hsha (row : TransferRow) : (f row).blobSha256 = row.blobSha256 :=
    (TransferRow.columns_of_fixed (hfixed row)).2.2.2.2.2
  have hsize (row : TransferRow) : (f row).sizeBytes = row.sizeBytes :=
    (TransferRow.columns_of_fixed (hfixed row)).2.2.1
  have hstores {row : TransferRow} {id : String} {blob : Bytes} (hrow : row.Stores env id blob) :
      (f row).Stores env id blob :=
    ⟨(hid row).trans hrow.transferId, (hsha row).trans hrow.sha256, (hsize row).trans hrow.size⟩
  constructor
  · intro id blob hheld
    rcases h.owed id blob hheld with hinsert | ⟨row, hrow, hblob, hstate⟩ | hsettle
    · exact Or.inl hinsert
    · exact Or.inr (Or.inl ⟨f row, List.mem_map_of_mem hrow, hstores hblob, (hopen row).mpr hstate⟩)
    · exact Or.inr (Or.inr hsettle)
  · intro row' hrow' hupload hstate
    obtain ⟨row, hrow, rfl⟩ := List.mem_map.mp hrow'
    rw [hsha] at hupload
    obtain ⟨blob, hheld, hblob⟩ := h.stored row hrow hupload ((hopen row).mp hstate)
    rw [hid]
    exact ⟨blob, hheld, hstores hblob⟩
  · exact h.inserting
  · intro j t hj ht row' hrow'
    obtain ⟨row, hrow, rfl⟩ := List.mem_map.mp hrow'
    rw [hid]
    exact h.fresh j t hj ht row hrow
  · exact h.single
  · intro j op id hj hop
    obtain ⟨row, hrow, hrowId, hstate⟩ := h.ending j op id hj hop
    exact ⟨f row, List.mem_map_of_mem hrow, (hid row).trans hrowId, hdelivered row hstate⟩
  · exact h.object

/-- A row without stored bytes is inserted. -/
theorem Retained.insertOther (h : Retained env pending rows held) {row : TransferRow}
    (hsha : row.blobSha256 = none) (hheld : held row.transferId = none) :
    Retained env pending (rows ++ [row]) held := by
  constructor
  · intro id blob hid
    rcases h.owed id blob hid with hinsert | ⟨old, hold, hblob⟩ | hsettle
    · exact Or.inl hinsert
    · exact Or.inr (Or.inl ⟨old, List.mem_append_left _ hold, hblob⟩)
    · exact Or.inr (Or.inr hsettle)
  · intro old hold hupload
    rcases List.mem_append.mp hold with hold | hold
    · exact h.stored old hold hupload
    · rw [List.mem_singleton.mp hold, hsha] at hupload
      cases hupload
  · exact h.inserting
  · intro j t hj ht old hold
    rcases List.mem_append.mp hold with hold | hold
    · exact h.fresh j t hj ht old hold
    · rw [List.mem_singleton.mp hold]
      intro heq
      obtain ⟨-, blob, hblob, -⟩ := h.inserting j t hj ht
      rw [← heq, hheld] at hblob
      cases hblob
  · exact h.single
  · intro j op id hj hop
    obtain ⟨old, hold, hrow⟩ := h.ending j op id hj hop
    exact ⟨old, List.mem_append_left _ hold, hrow⟩
  · exact h.object

/-- The row of stored bytes is inserted. -/
theorem Retained.insertStored (h : Retained env pending rows held) {t : InsertTransfer}
    {row : TransferRow} (hi : pending i = some (.insertTransfer t)) (ht : t.blobSha256.isSome)
    (hrow : row.toInsertTransfer = t) (hnew : next.bind Op.concerns = none) :
    Retained env (Function.update pending i next) (rows ++ [row]) held := by
  obtain ⟨hready, blob₀, hheld₀, hstores₀⟩ := h.inserting i t hi ht
  have hrowId : row.transferId = t.transferId := by rw [hrow]
  have hkeep {j : ℕ} {op : Op} (hj : pending j = some op) (hop : op ≠ .insertTransfer t) :
      Function.update pending i next j = some op := by
    have hji : j ≠ i := by
      rintro rfl
      rw [hi] at hj
      exact hop (Option.some.inj hj).symm
    rwa [Function.update_of_ne hji]
  constructor
  · intro id blob hheld
    rcases h.owed id blob hheld with ⟨j, t', hj, ht'⟩ | ⟨old, hold, hblob⟩ | ⟨j, op, hj, hop⟩
    · by_cases heq : t' = t
      · subst heq
        refine Or.inr (Or.inl ⟨row, by simp, hrow ▸ ht', Or.inl ?_⟩)
        rw [← hready, hrow]
      · exact Or.inl ⟨j, t', hkeep hj (by simpa using heq), ht'⟩
    · exact Or.inr (Or.inl ⟨old, List.mem_append_left _ hold, hblob⟩)
    · refine Or.inr (Or.inr ⟨j, op, hkeep hj ?_, hop⟩)
      rintro rfl
      rcases hop with hop | hop <;> cases hop
  · intro old hold hupload hstate
    rcases List.mem_append.mp hold with hold | hold
    · exact h.stored old hold hupload hstate
    · rw [List.mem_singleton.mp hold, hrow]
      exact ⟨blob₀, hheld₀, hstores₀⟩
  · intro j t' hj ht'
    exact h.inserting j t' (pending_of_update hnew hj (concerns_insertTransfer ht')).2 ht'
  · intro j t' hj ht' old hold
    obtain ⟨hji, hj'⟩ := pending_of_update hnew hj (concerns_insertTransfer ht')
    rcases List.mem_append.mp hold with hold | hold
    · exact h.fresh j t' hj' ht' old hold
    · rw [List.mem_singleton.mp hold, hrowId]
      exact fun heq => hji (h.single i j t t' hi hj' ht ht' heq).symm
  · intro j k t₁ t₂ hj hk ht₁ ht₂
    exact h.single j k t₁ t₂ (pending_of_update hnew hj (concerns_insertTransfer ht₁)).2
      (pending_of_update hnew hk (concerns_insertTransfer ht₂)).2 ht₁ ht₂
  · intro j op id hj hop
    obtain ⟨old, hold, hend⟩ :=
      h.ending j op id (pending_of_update hnew hj hop.concerns).2 hop
    exact ⟨old, List.mem_append_left _ hold, hend⟩
  · intro j event hj hkind
    exact h.object j event (pending_of_update hnew hj (concerns_delivered hkind)).2 hkind

theorem not_settles_insertTransfer {t : InsertTransfer} {id : String} :
    ¬(Op.insertTransfer t).Settles id := by
  rintro (h | h) <;> cases h

/-- A task about to do something quiet is not one of those the invariant speaks about. -/
theorem pending_ne_of_quiet {j : ℕ} {op : Op} {id : String}
    (hold : (pending i).bind Op.concerns = none) (hj : pending j = some op)
    (hop : op.concerns = some id) : j ≠ i := by
  rintro rfl
  simp [hj, hop] at hold

/-- Bytes are stored under a fresh identifier; the insert of their row is next. -/
theorem Retained.put (h : Retained env pending rows held) {id : String} {blob : Bytes}
    {t : InsertTransfer} (hold : (pending i).bind Op.concerns = none) (hheld : held id = none)
    (hrows : ∀ row ∈ rows, row.transferId ≠ id) (ht : t.Stores env id blob)
    (hready : t.state = .readyForPickup) :
    Retained env (Function.update pending i (some (.insertTransfer t))) rows
      (Function.update held id (some blob)) := by
  have hkeep {j : ℕ} {op : Op} {id' : String} (hj : pending j = some op)
      (hop : op.concerns = some id') :
      Function.update pending i (some (.insertTransfer t)) j = some op := by
    rwa [Function.update_of_ne (pending_ne_of_quiet hold hj hop)]
  have hother {id' : String} {blob' : Bytes} (hid : held id' = some blob') :
      Function.update held id (some blob) id' = some blob' := by
    rwa [Function.update_of_ne]
    rintro rfl
    rw [hheld] at hid
    cases hid
  constructor
  · intro id' blob' hid
    by_cases heq : id' = id
    · subst heq
      rw [Function.update_self] at hid
      cases hid
      exact Or.inl ⟨i, t, Function.update_self .., ht⟩
    · rw [Function.update_of_ne heq] at hid
      rcases h.owed id' blob' hid with ⟨j, t', hj, ht'⟩ | hrow | ⟨j, op, hj, hop⟩
      · exact Or.inl ⟨j, t', hkeep hj ht'.concerns, ht'⟩
      · exact Or.inr (Or.inl hrow)
      · exact Or.inr (Or.inr ⟨j, op, hkeep hj hop.concerns, hop⟩)
  · intro row hrow hupload hstate
    obtain ⟨blob', hid, hblob⟩ := h.stored row hrow hupload hstate
    exact ⟨blob', hother hid, hblob⟩
  · intro j t' hj ht'
    by_cases hji : j = i
    · rw [hji, Function.update_self] at hj
      cases hj
      rw [ht.transferId, Function.update_self]
      exact ⟨hready, blob, rfl, ht⟩
    · rw [Function.update_of_ne hji] at hj
      obtain ⟨hready', blob', hid, hblob⟩ := h.inserting j t' hj ht'
      exact ⟨hready', blob', hother hid, hblob⟩
  · intro j t' hj ht'
    by_cases hji : j = i
    · rw [hji, Function.update_self] at hj
      cases hj
      rw [ht.transferId]
      exact hrows
    · rw [Function.update_of_ne hji] at hj
      exact h.fresh j t' hj ht'
  · have hnew {j : ℕ} {t' : InsertTransfer} (hj : pending j = some (.insertTransfer t'))
        (ht' : t'.blobSha256.isSome) : t.transferId ≠ t'.transferId := by
      intro heq
      obtain ⟨-, blob', hid, -⟩ := h.inserting j t' hj ht'
      rw [← heq, ht.transferId, hheld] at hid
      cases hid
    intro j k t₁ t₂ hj hk ht₁ ht₂ heq
    by_cases hji : j = i
    · by_cases hki : k = i
      · rw [hji, hki]
      · rw [hji, Function.update_self] at hj
        rw [Function.update_of_ne hki] at hk
        cases hj
        exact absurd heq (hnew hk ht₂)
    · rw [Function.update_of_ne hji] at hj
      by_cases hki : k = i
      · rw [hki, Function.update_self] at hk
        cases hk
        exact absurd heq.symm (hnew hj ht₁)
      · rw [Function.update_of_ne hki] at hk
        exact h.single j k t₁ t₂ hj hk ht₁ ht₂ heq
  · intro j op id' hj hop
    by_cases hji : j = i
    · rw [hji, Function.update_self] at hj
      cases hj
      exact absurd hop not_settles_insertTransfer
    · rw [Function.update_of_ne hji] at hj
      exact h.ending j op id' hj hop
  · intro j event hj hkind
    by_cases hji : j = i
    · rw [hji, Function.update_self] at hj
      cases hj
    · rw [Function.update_of_ne hji] at hj
      exact h.object j event hj hkind

theorem not_open_of_delivered {row : TransferRow} (h : row.state = .delivered) : ¬row.Open := by
  rintro (hstate | hstate) <;> rw [h] at hstate <;> cases hstate

theorem deliverRow_transferId (now : Timestamp) (id : String) (row : TransferRow) :
    (deliverRow now id row).transferId = row.transferId :=
  TransferRow.transferId_of_fixed (deliverRow_steps now id row).fixed

/-- A delivered row stays as it is. -/
theorem deliverRow_of_delivered (now : Timestamp) (id : String) {row : TransferRow}
    (h : row.state = .delivered) : deliverRow now id row = row := by
  refine if_neg fun hdeliverable => ?_
  rcases (deliverable_iff.mp hdeliverable).2 with hstate | hstate <;> rw [h] at hstate <;> cases hstate

/-- A transfer is marked as delivered; its record is next. -/
theorem Retained.mark (h : Retained env pending rows held) {now : Timestamp} {event : Audit.Event}
    (hold : (pending i).bind Op.concerns = none)
    (hmarked : ∃ row ∈ rows, deliverable event.subject row = true)
    (hkind : event.kind = .transferDelivered) (hobject : Audit.isObject event.payload = true) :
    Retained env (Function.update pending i (some (.auditAppend event)))
      (rows.map (deliverRow now event.subject)) held := by
  have hkeep {j : ℕ} {op : Op} {id' : String} (hj : pending j = some op)
      (hop : op.concerns = some id') :
      Function.update pending i (some (.auditAppend event)) j = some op := by
    rwa [Function.update_of_ne (pending_ne_of_quiet hold hj hop)]
  have hback {j : ℕ} {op : Op} (hj : Function.update pending i (some (.auditAppend event)) j = some op)
      (hop : op ≠ .auditAppend event) : pending j = some op := by
    by_cases hji : j = i
    · rw [hji, Function.update_self] at hj
      exact absurd (Option.some.inj hj).symm hop
    · rwa [Function.update_of_ne hji] at hj
  have hsettles : (Op.auditAppend event).Settles event.subject := Or.inl (if_pos hkind)
  constructor
  · intro id blob hid
    rcases h.owed id blob hid with ⟨j, t, hj, ht⟩ | ⟨row, hrow, hblob, hstate⟩ | ⟨j, op, hj, hop⟩
    · exact Or.inl ⟨j, t, hkeep hj ht.concerns, ht⟩
    · by_cases heq : id = event.subject
      · subst heq
        exact Or.inr (Or.inr ⟨i, _, Function.update_self .., hsettles⟩)
      · have hsame : deliverRow now event.subject row = row := by
          refine if_neg fun hdeliverable => heq ?_
          rw [← (deliverable_iff.mp hdeliverable).1, hblob.transferId]
        exact Or.inr (Or.inl ⟨row, hsame ▸ List.mem_map_of_mem hrow, hblob, hstate⟩)
    · exact Or.inr (Or.inr ⟨j, op, hkeep hj hop.concerns, hop⟩)
  · intro row' hrow' hupload hstate
    obtain ⟨row, hrow, rfl⟩ := List.mem_map.mp hrow'
    have hsame : deliverRow now event.subject row = row := by
      unfold deliverRow at hstate ⊢
      split_ifs at hstate ⊢ with hdeliverable
      · exact absurd hstate (not_open_of_delivered rfl)
      · rfl
    rw [hsame] at hupload hstate ⊢
    exact h.stored row hrow hupload hstate
  · intro j t hj ht
    exact h.inserting j t (hback hj nofun) ht
  · intro j t hj ht row' hrow'
    obtain ⟨row, hrow, rfl⟩ := List.mem_map.mp hrow'
    rw [deliverRow_transferId]
    exact h.fresh j t (hback hj nofun) ht row hrow
  · intro j k t t' hj hk
    exact h.single j k t t' (hback hj nofun) (hback hk nofun)
  · intro j op id hj hop
    by_cases hji : j = i
    · rw [hji, Function.update_self] at hj
      cases hj
      obtain rfl : event.subject = id := Option.some.inj (hsettles.concerns.symm.trans hop.concerns)
      obtain ⟨row, hrow, hdeliverable⟩ := hmarked
      refine ⟨_, List.mem_map_of_mem hrow, ?_, ?_⟩
      · rw [deliverRow_transferId]
        exact (deliverable_iff.mp hdeliverable).1
      · rw [deliverRow, if_pos hdeliverable]
    · rw [Function.update_of_ne hji] at hj
      obtain ⟨row, hrow, hid, hstate⟩ := h.ending j op id hj hop
      refine ⟨row, ?_, hid, hstate⟩
      rw [← deliverRow_of_delivered now event.subject hstate]
      exact List.mem_map_of_mem hrow
  · intro j event' hj hkind'
    by_cases hji : j = i
    · rw [hji, Function.update_self] at hj
      cases hj
      exact hobject
    · rw [Function.update_of_ne hji] at hj
      exact h.object j event' hj hkind'

/-- After its record a delivered transfer's bytes are deleted next. -/
theorem Retained.advance (h : Retained env pending rows held) {op : Op} {id : String}
    (hi : pending i = some op) (hop : op.Settles id) :
    Retained env (Function.update pending i (some (.blobDelete id))) rows held := by
  have hkeep {j : ℕ} {op' : Op} (hj : pending j = some op') (hne : op' ≠ op) :
      Function.update pending i (some (.blobDelete id)) j = some op' := by
    rw [Function.update_of_ne]
    · exact hj
    · rintro rfl
      rw [hi] at hj
      exact hne (Option.some.inj hj).symm
  have hback {j : ℕ} {op' : Op} (hj : Function.update pending i (some (.blobDelete id)) j = some op')
      (hne : op' ≠ .blobDelete id) : pending j = some op' := by
    by_cases hji : j = i
    · rw [hji, Function.update_self] at hj
      exact absurd (Option.some.inj hj).symm hne
    · rwa [Function.update_of_ne hji] at hj
  constructor
  · intro id' blob hid
    rcases h.owed id' blob hid with ⟨j, t, hj, ht⟩ | hrow | ⟨j, op', hj, hop'⟩
    · refine Or.inl ⟨j, t, hkeep hj ?_, ht⟩
      rintro rfl
      exact not_settles_insertTransfer hop
    · exact Or.inr (Or.inl hrow)
    · by_cases heq : op' = op
      · subst heq
        obtain rfl : id' = id := Option.some.inj (hop'.concerns.symm.trans hop.concerns)
        exact Or.inr (Or.inr ⟨i, _, Function.update_self .., Or.inr rfl⟩)
      · exact Or.inr (Or.inr ⟨j, op', hkeep hj heq, hop'⟩)
  · exact h.stored
  · intro j t hj
    exact h.inserting j t (hback hj nofun)
  · intro j t hj
    exact h.fresh j t (hback hj nofun)
  · intro j k t t' hj hk
    exact h.single j k t t' (hback hj nofun) (hback hk nofun)
  · intro j op' id' hj hop'
    by_cases heq : op' = .blobDelete id
    · subst heq
      obtain rfl : id = id' := Option.some.inj hop'.concerns
      exact h.ending i op id hi hop
    · exact h.ending j op' id' (hback hj heq) hop'
  · intro j event hj
    exact h.object j event (hback hj nofun)

/-- The bytes of a delivered transfer are deleted. -/
theorem Retained.delete (h : Retained env pending rows held) {id : String}
    (hunique : ∀ row ∈ rows, ∀ row' ∈ rows, row.transferId = row'.transferId → row = row')
    (hend : ∃ row ∈ rows, row.transferId = id ∧ row.state = .delivered) :
    Retained env pending rows (Function.update held id none) := by
  obtain ⟨last, hlast, rfl, hdelivered⟩ := hend
  have hkeep {id' : String} {blob : Bytes} (hid : held id' = some blob)
      (hne : id' ≠ last.transferId) : Function.update held last.transferId none id' = some blob := by
    rwa [Function.update_of_ne hne]
  constructor
  · intro id' blob hid
    by_cases heq : id' = last.transferId
    · rw [heq, Function.update_self] at hid
      cases hid
    · rw [Function.update_of_ne heq] at hid
      exact h.owed id' blob hid
  · intro row hrow hupload hstate
    obtain ⟨blob, hid, hblob⟩ := h.stored row hrow hupload hstate
    refine ⟨blob, hkeep hid fun heq => ?_, hblob⟩
    rw [hunique row hrow last hlast heq] at hstate
    exact not_open_of_delivered hdelivered hstate
  · intro j t hj ht
    obtain ⟨hready, blob, hid, hblob⟩ := h.inserting j t hj ht
    exact ⟨hready, blob, hkeep hid fun heq => h.fresh j t hj ht last hlast heq.symm, hblob⟩
  · exact h.fresh
  · exact h.single
  · exact h.ending
  · exact h.object

end Retained

/-! ## Every operation keeps it -/

section Exec

variable {env : Env} {pending : ℕ → Option Op} {s : State} {c : Choice} {i : ℕ}
  {next : Option Op}

theorem quiet_of_after {e : Library.Event effects} (h : (duties env).After e next)
    (hleaves : (duties env).leaves e = none) : next.bind Op.concerns = none := by
  cases next with
  | none => rfl
  | some op => exact not_not.mp (h.free hleaves op rfl)

theorem acceptRow_open (now : Timestamp) (id : String) (row : TransferRow) :
    (acceptRow now id row).Open ↔ row.Open := by
  unfold acceptRow TransferRow.Open
  split_ifs with h
  · simp [(acceptable_iff.mp h).2]
  · rfl

theorem Retained.blobPut (h : Retained env pending s.db.transfers s.held) {id : String}
    {blob : Bytes} (hi : pending i = some (.blobPut id blob))
    (hcond : settlesBlob s c (.blobPut id blob) = true)
    (hafter : (duties env).After ⟨.blobPut id blob, (exec env s (.blobPut id blob) c).1⟩ next) :
    Retained env (Function.update pending i next)
      (exec env s (.blobPut id blob) c).2.db.transfers (exec env s (.blobPut id blob) c).2.held := by
  have hquiet : (pending i).bind Op.concerns = none := by rw [hi]; rfl
  rw [exec_transfers_frame (by simp [Op.writes]), held_blobPut]
  rcases State.storeBlob_cases s c ((id, blob) :: s.blobs.filter fun b => b.1 ≠ id) with
    ⟨e, hc, he⟩ | ⟨hc, he⟩
  · rw [if_neg (by simp [hc])]
    simp only [exec, he] at hafter
    exact h.turn (by simp [hquiet]) (quiet_of_after hafter rfl)
  · rw [if_pos hc]
    simp only [exec, he] at hafter
    obtain ⟨_, rfl, t, rfl, ht, hready⟩ := hafter.settles _ rfl
    simp only [settlesBlob, hc, Option.isSome_none, Bool.false_or, Bool.and_eq_true,
      Option.isNone_iff_eq_none, List.all_eq_true, decide_eq_true_eq] at hcond
    exact h.put hquiet hcond.1 hcond.2 ht hready

theorem Retained.insertTransfer (h : Retained env pending s.db.transfers s.held)
    {t : InsertTransfer} (hi : pending i = some (.insertTransfer t))
    (hcond : settlesBlob s c (.insertTransfer t) = true)
    (hafter : (duties env).After ⟨.insertTransfer t, (exec env s (.insertTransfer t) c).1⟩ next) :
    Retained env (Function.update pending i next)
      (exec env s (.insertTransfer t) c).2.db.transfers
      (exec env s (.insertTransfer t) c).2.held := by
  have hnew : next.bind Op.concerns = none := quiet_of_after hafter rfl
  rw [held_frame (by simp [Op.writes])]
  by_cases hstored : t.blobSha256.isSome
  · have hc : c.failure = none := by simpa [settlesBlob, hstored] using hcond
    have hfresh : ¬s.db.transfers.any fun row => row.transferId = t.transferId := by
      simpa using h.fresh i t hi hstored
    have hrows : (exec env s (.insertTransfer t) c).2.db.transfers =
        s.db.transfers ++ [{ t with createdAt := s.dbNow }] := by
      simp only [exec, State.write, hc, Db.insertTransfer, if_neg hfresh]
    rw [hrows]
    exact h.insertStored hi hstored rfl hnew
  · have hheld : s.held t.transferId = none := by simpa [settlesBlob, hstored] using hcond
    have hsha : t.blobSha256 = none := by simpa using hstored
    have hquiet : (pending i).bind Op.concerns = none := by
      rw [hi]
      exact if_neg hstored
    have hstep := exec_tableStep env s (.insertTransfer t) c
    generalize (exec env s (.insertTransfer t) c).2.db.transfers = rows at hstep
    generalize (exec env s (.insertTransfer t) c).1 = answer at hstep
    cases hstep with
    | quiet hop => exact absurd rfl hop
    | failed _ => exact h.turn (by simp [hquiet]) hnew
    | insert _ _ => exact (h.insertOther hsha hheld).turn (by simp [hquiet]) hnew

theorem Retained.markDelivered (h : Retained env pending s.db.transfers s.held) {id : String}
    (hi : pending i = some (.markDelivered id))
    (hafter : (duties env).After ⟨.markDelivered id, (exec env s (.markDelivered id) c).1⟩ next) :
    Retained env (Function.update pending i next)
      (exec env s (.markDelivered id) c).2.db.transfers
      (exec env s (.markDelivered id) c).2.held := by
  have hquiet : (pending i).bind Op.concerns = none := by rw [hi]; rfl
  rw [held_frame (by simp [Op.writes])]
  by_cases hdelivers : Delivers id ⟨.markDelivered id, (exec env s (.markDelivered id) c).1⟩
  · obtain ⟨_, rfl, event, rfl, hkind, rfl, hobject⟩ :=
      hafter.settles _ (leaves_record_iff.mpr hdelivers)
    have hstep := exec_tableStep env s (.markDelivered event.subject) c
    generalize (exec env s (.markDelivered event.subject) c).2.db.transfers = rows at hstep
    generalize (exec env s (.markDelivered event.subject) c).1 = answer at hstep hdelivers
    cases hstep with
    | quiet hop => exact absurd rfl hop
    | failed hfailed =>
      obtain ⟨n, -, hn⟩ := hdelivers
      cases hn
      exact hfailed.elim
    | deliver _ =>
      have hne := (delivers_iff.mp hdelivers).2
      rw [← Nat.pos_iff_ne_zero, List.countP_pos_iff] at hne
      exact h.mark hquiet hne hkind hobject
  · have hkept : Kept ⟨.markDelivered id, (exec env s (.markDelivered id) c).1⟩ ∧
        (duties env).leaves ⟨.markDelivered id, (exec env s (.markDelivered id) c).1⟩ = none := by
      generalize (exec env s (.markDelivered id) c).1 = answer at hdelivers ⊢
      cases answer with
      | error e => exact ⟨Or.inr ⟨id, Or.inl ⟨e, rfl⟩⟩, rfl⟩
      | ok updated =>
        obtain rfl : updated = 0 := by_contra fun hne => hdelivers ⟨updated, hne, rfl⟩
        exact ⟨Or.inr ⟨id, Or.inr rfl⟩, rfl⟩
    rw [(exec_kept hkept.1).1]
    exact h.turn (by simp [hquiet]) (quiet_of_after hafter hkept.2)

theorem Retained.auditAppend (h : Retained env pending s.db.transfers s.held) {event : Audit.Event}
    (hi : pending i = some (.auditAppend event))
    (hcond : settlesBlob s c (.auditAppend event) = true)
    (hafter : (duties env).After ⟨.auditAppend event, (exec env s (.auditAppend event) c).1⟩ next) :
    Retained env (Function.update pending i next)
      (exec env s (.auditAppend event) c).2.db.transfers
      (exec env s (.auditAppend event) c).2.held := by
  rw [exec_transfers_frame (by simp [Op.writes]), held_frame (by simp [Op.writes])]
  by_cases hkind : event.kind = .transferDelivered
  · have hconcerns : (Op.auditAppend event).concerns = some event.subject := concerns_delivered hkind
    rcases State.appendAudit_cases s c event with ⟨e, hfailed, he⟩ | ⟨-, hok⟩
    · simp only [exec, he] at hafter
      refine h.turn ?_ (quiet_of_after hafter rfl)
      intro id hid
      obtain rfl : event.subject = id := by simpa [hi, hconcerns] using hid
      have hfailure : c.failure ≠ none := by
        intro hc
        have hobject := h.object i event hi hkind
        rw [hfailed hc] at hobject
        cases hobject
      simpa [settlesBlob, hconcerns, hfailure] using hcond
    · simp only [exec, hok] at hafter
      obtain ⟨op, rfl, hop⟩ := hafter.settles (.discard event.subject) (if_pos hkind)
      obtain rfl : op = .blobDelete event.subject := hop
      exact h.advance hi (Or.inl (if_pos hkind))
  · have hidle : (Op.auditAppend event).Idle env := auditAppend_idle hkind
    refine h.turn ?_ (quiet_of_after hafter (hidle.2 _))
    simp [hi, not_not.mp hidle.1]

theorem Retained.blobDelete (h : Retained env pending s.db.transfers s.held) {trace : Trace}
    (htable : Table trace s.db.transfers) {id : String} (hi : pending i = some (.blobDelete id))
    (hcond : settlesBlob s c (.blobDelete id) = true)
    (hafter : (duties env).After ⟨.blobDelete id, (exec env s (.blobDelete id) c).1⟩ next) :
    Retained env (Function.update pending i next)
      (exec env s (.blobDelete id) c).2.db.transfers (exec env s (.blobDelete id) c).2.held := by
  have hnew : next.bind Op.concerns = none := quiet_of_after hafter rfl
  have hconcerns : ∀ id', (pending i).bind Op.concerns = some id' → id = id' := by
    intro id' hid
    simpa [hi, Op.concerns] using hid
  rw [exec_transfers_frame (by simp [Op.writes]), held_blobDelete]
  split_ifs with hc
  · refine Retained.turn (h.delete (fun row hr row' hr' => htable.unique hr hr')
      (h.ending i _ id hi (Or.inr rfl))) ?_ hnew
    intro id' hid
    rw [hconcerns id' hid, Function.update_self]
  · refine h.turn ?_ hnew
    intro id' hid
    rw [← hconcerns id' hid]
    simpa [settlesBlob, Op.concerns, hc] using hcond

/-- Every operation that meets the condition keeps the invariant. -/
theorem Retained.exec (h : Retained env pending s.db.transfers s.held) {trace : Trace}
    (htable : Table trace s.db.transfers) {op : Op} (hi : pending i = some op)
    (hcond : settlesBlob s c op = true)
    (hafter : (duties env).After ⟨op, (exec env s op c).1⟩ next) :
    Retained env (Function.update pending i next) (exec env s op c).2.db.transfers
      (exec env s op c).2.held := by
  cases op with
  | blobPut id blob => exact h.blobPut hi hcond hafter
  | insertTransfer t => exact h.insertTransfer hi hcond hafter
  | markDelivered id => exact h.markDelivered hi hafter
  | auditAppend event => exact h.auditAppend hi hcond hafter
  | blobDelete id => exact h.blobDelete htable hi hcond hafter
  | markAccepted id =>
    have hnew := quiet_of_after hafter rfl
    have hstep := exec_tableStep env s (.markAccepted id) c
    rw [held_frame (by simp [Op.writes])]
    generalize (ControlPlane.exec env s (.markAccepted id) c).2.db.transfers = rows at hstep
    generalize (ControlPlane.exec env s (.markAccepted id) c).1 = answer at hstep
    cases hstep with
    | quiet hop => exact absurd rfl hop
    | failed _ => exact h.turn (by simp [hi, Op.concerns, Op.records]) hnew
    | accept _ =>
      refine Retained.turn (h.map (fun row => (acceptRow_steps _ id row).fixed)
        (acceptRow_open _ id) ?_) (by simp [hi, Op.concerns, Op.records]) hnew
      intro row hdelivered
      rw [acceptRow, if_neg]
      · exact hdelivered
      · simp [acceptable_iff, hdelivered]
  | persistReachableAt id endpoints =>
    have hnew := quiet_of_after hafter rfl
    have hstep := exec_tableStep env s (.persistReachableAt id endpoints) c
    have hstate (row : TransferRow) : (persistRow id endpoints row).state = row.state := by
      unfold persistRow
      split_ifs <;> rfl
    rw [held_frame (by simp [Op.writes])]
    generalize (ControlPlane.exec env s (.persistReachableAt id endpoints) c).2.db.transfers = rows
      at hstep
    generalize (ControlPlane.exec env s (.persistReachableAt id endpoints) c).1 = answer at hstep
    cases hstep with
    | quiet hop => exact absurd rfl hop
    | failed _ => exact h.turn (by simp [hi, Op.concerns, Op.records]) hnew
    | persist _ _ _ =>
      exact Retained.turn (h.map (fun row => (persistRow_steps id endpoints row).fixed)
        (by simp [TransferRow.Open, hstate]) (by simp [hstate]))
        (by simp [hi, Op.concerns, Op.records]) hnew
  | _ =>
    rw [exec_transfers_frame (by simp [Op.writes]), held_frame (by simp [Op.writes])]
    exact h.turn (by simp [hi, Op.concerns, Op.records]) (quiet_of_after hafter rfl)

end Exec

/-! ## Whole runs -/

theorem run_retained (env : Env) (labels : List Label)
    (h : Pool.Along (semantics env) {} SettlesBlobs labels) :
    Retained env (run env labels).pending (run env labels).shared.db.transfers
      (run env labels).shared.held := by
  refine Pool.run_pending_induction (handler_duties env)
    (J := fun pending _ s => Retained env pending s.db.transfers s.held) retained_nil ?_ ?_ ?_
    (fun _ _ hJ => hJ) labels h
  · intro w i next hnone hfree hJ
    refine hJ.turn (by simp [hnone]) ?_
    cases next with
    | none => rfl
    | some op => exact not_not.mp (hfree op rfl)
  · intro labels i c r op next w hi hcond hafter hJ
    refine hJ.exec (run_table env labels) hi ?_ hafter
    simpa [SettlesBlobs, settlesBlobs, hi] using hcond
  · intro w i hcond hJ
    refine hJ.turn ?_ rfl
    intro id hid
    simpa [SettlesBlobs, settlesBlobs, hid] using hcond

theorem toInt_size {n : ℕ} (h : n < 2 ^ 63) : (UInt64.ofNat n).toInt64.toInt = n := by
  have hnat : (UInt64.ofNat n).toBitVec.toNat = n :=
    UInt64.toNat_ofNat_of_lt (h.trans (by decide))
  change (UInt64.ofNat n).toBitVec.toInt = n
  rw [BitVec.toInt_eq_toNat_of_lt (by omega), hnat]

/-- In every run whose labels meet the condition, wherever no request is in progress, bytes are
stored exactly for the uploads that can still be downloaded. -/
theorem retentionMatches_of_settlesBlobs (env : Env) (labels : List Label)
    (h : Pool.Along (semantics env) {} SettlesBlobs labels)
    (hquiet : (run env labels).quiescent = true) :
    RetentionMatches env (run env labels).shared := by
  have hretained := run_retained env labels h
  have htable := run_table env labels
  have hnone := Pool.quiescent_iff.mp hquiet
  -- with no task left, bytes can only be there for an open row
  have howed {id : String} {blob : Bytes} (hheld : (run env labels).shared.held id = some blob) :
      ∃ row ∈ (run env labels).shared.db.transfers, row.Stores env id blob ∧ row.Open := by
    rcases hretained.owed id blob hheld with ⟨i, t, hi, -⟩ | hrow | ⟨i, op, hi, -⟩
    · rw [hnone] at hi
      cases hi
    · exact hrow
    · rw [hnone] at hi
      cases hi
  constructor
  · intro id
    constructor
    · intro hsome
      obtain ⟨blob, hheld⟩ := Option.isSome_iff_exists.mp hsome
      obtain ⟨row, hrow, hstores, hopen⟩ := howed hheld
      exact ⟨row, hrow, hstores.transferId, hstores.isSome, hopen⟩
    · rintro ⟨row, hrow, rfl, hupload, hopen⟩
      obtain ⟨blob, hheld, -⟩ := hretained.stored row hrow hupload hopen
      rw [hheld]
      rfl
  · intro id blob hheld row hrow hid
    obtain ⟨row', hrow', hstores, -⟩ := howed hheld
    obtain rfl := htable.unique hrow hrow' (hid.trans hstores.transferId.symm)
    refine ⟨hstores.sha256, fun hlength => ?_⟩
    rw [hstores.size, toInt_size hlength]

namespace Sample

/-- An upload that is dropped once its bytes are stored. -/
def droppedUpload : List Label :=
  clockAt 1700000000 :: serve 0 (.register registerAlice) 3 ++
    serve 1 (.createTransfer blobRequest) 14 1 ++ [.cancel 1]

end Sample

theorem retentionMatches_of_settlesBlobs_upload :
    (run Sample.env Sample.upload).shared.held Sample.transferId =
      some (Sample.bytesOf Sample.blobRequest.blobHex) ∧
    RetentionMatches Sample.env (run Sample.env Sample.upload).shared := by
  have hrun : Pool.AlongTo (semantics Sample.env) SettlesBlobs
      (fun w => w.shared.held Sample.transferId =
        some (Sample.bytesOf Sample.blobRequest.blobHex) ∧ w.quiescent = true)
      ⟨{}, [], []⟩ Sample.upload := by
    rw [Sample.env_eq]
    decide +kernel
  obtain ⟨halong, hheld, hquiet⟩ := run_checked hrun
  exact ⟨hheld, retentionMatches_of_settlesBlobs _ _ halong hquiet⟩

/-- The dropped upload leaves its bytes behind. -/
theorem droppedUpload_kept : (run Sample.env Sample.droppedUpload).quiescent = true ∧
    ¬RetentionMatches Sample.env (run Sample.env Sample.droppedUpload).shared := by
  have hrun : (run Sample.env Sample.droppedUpload).quiescent = true ∧
      (run Sample.env Sample.droppedUpload).shared.db.transfers = [] ∧
      ((run Sample.env Sample.droppedUpload).shared.held Sample.transferId).isSome = true := by
    rw [Sample.env_eq]
    decide +kernel
  obtain ⟨hquiet, hrows, hheld⟩ := hrun
  refine ⟨hquiet, fun h => ?_⟩
  obtain ⟨row, hrow, -⟩ := (h.stored Sample.transferId).mp hheld
  rw [hrows] at hrow
  cases hrow

end AgentExchange.ControlPlane
