import AgentExchange.ControlPlane.System
import AgentExchange.Library.Text

/-!
# What an operation changes

Each operation writes at most one part of the state, and a write either takes
effect as a whole or leaves everything as it was. Invariants of one table are
proved from these lemmas and never look inside `exec`.
-/
namespace AgentExchange.ControlPlane

open Library

/-- The parts of the state that are written separately. -/
inductive Part where
  | ledger
  | registrationNonces
  | rotateKeyNonces
  | intentNonces
  | transfers
  | ticketNonces
  | blobs
  | audit
  deriving DecidableEq

def Op.writes : Op → Option Part
  | .insertAgent _ _ _ _ _ => some .ledger
  | .insertRotation _ _ _ _ _ => some .ledger
  | .consumeNonce _ _ => some .registrationNonces
  | .consumeRotateNonce _ _ => some .rotateKeyNonces
  | .consumeIntentNonce _ _ => some .intentNonces
  | .insertTransfer _ => some .transfers
  | .markAccepted _ => some .transfers
  | .markDelivered _ => some .transfers
  | .persistReachableAt _ _ => some .transfers
  | .insertTicketNonce _ _ _ => some .ticketNonces
  | .blobPut _ _ => some .blobs
  | .blobDelete _ => some .blobs
  | .auditAppend _ => some .audit
  | _ => none

namespace State

variable {α : Type} {s : State} {c : Choice} {out : Except SqlxError (α × Db)}

theorem read_eq_ok {a b : α} (h : State.read c a = .ok b) : a = b := by
  unfold State.read at h
  split at h
  · cases h
  · simpa using h

theorem write_cases (s : State) (c : Choice) (out : Except SqlxError (α × Db)) :
    (∃ e, s.write c out = (.error e, s)) ∨
      ∃ a db, out = .ok (a, db) ∧ s.write c out = (.ok a, { s with db := db }) := by
  unfold write
  cases c.failure with
  | some message => exact Or.inl ⟨_, rfl⟩
  | none =>
    match out with
    | .error e => exact Or.inl ⟨e, rfl⟩
    | .ok (a, db) => exact Or.inr ⟨a, db, rfl, rfl⟩

theorem write_eq_ok {a : α} (h : (s.write c out).1 = .ok a) :
    ∃ db, out = .ok (a, db) ∧ s.write c out = (.ok a, { s with db := db }) := by
  rcases write_cases s c out with ⟨e, he⟩ | ⟨a', db, hout, hw⟩
  · rw [he] at h
    cases h
  · rw [hw] at h
    cases h
    exact ⟨db, hout, hw⟩

/-- What every outcome of a statement keeps, the write keeps. -/
theorem write_frame {β : Type} (f : Db → β) (h : ∀ a db, out = .ok (a, db) → f db = f s.db) :
    f (s.write c out).2.db = f s.db := by
  rcases write_cases s c out with ⟨e, he⟩ | ⟨a, db, hout, hw⟩
  · rw [he]
  · rw [hw]
    exact h a db hout

theorem write_clocks : (s.write c out).2.now = s.now ∧ (s.write c out).2.dbNow = s.dbNow := by
  rcases write_cases s c out with ⟨e, he⟩ | ⟨a, db, -, hw⟩
  · rw [he]
    exact ⟨rfl, rfl⟩
  · rw [hw]
    exact ⟨rfl, rfl⟩

theorem storeBlob_db (blobs : List (String × Bytes)) :
    (s.storeBlob c blobs).2.db = s.db ∧ (s.storeBlob c blobs).2.now = s.now ∧
      (s.storeBlob c blobs).2.dbNow = s.dbNow := by
  unfold storeBlob
  cases c.failure <;> exact ⟨rfl, rfl, rfl⟩

theorem storeBlob_cases (s : State) (c : Choice) (blobs : List (String × Bytes)) :
    (∃ e, c.failure = some e ∧ s.storeBlob c blobs = (.error e, s)) ∨
      (c.failure = none ∧ s.storeBlob c blobs = (.ok (), { s with blobs := blobs })) := by
  unfold storeBlob
  cases c.failure with
  | some message => exact Or.inl ⟨message, rfl, rfl⟩
  | none => exact Or.inr ⟨rfl, rfl⟩

theorem storeBlob_audit (blobs : List (String × Bytes)) :
    (s.storeBlob c blobs).2.audit = s.audit := by
  rcases storeBlob_cases s c blobs with ⟨e, -, he⟩ | ⟨-, he⟩ <;> rw [he]

theorem appendAudit_cases (s : State) (c : Choice) (event : Audit.Event) :
    (∃ e, (c.failure = none → Audit.isObject event.payload = false) ∧
      s.appendAudit c event = (.error e, s)) ∨
    (c.failure = none ∧
      s.appendAudit c event = (.ok c.receipt, { s with audit := s.audit ++ [event] })) := by
  unfold appendAudit
  cases c.failure with
  | some message => exact Or.inl ⟨_, nofun, rfl⟩
  | none =>
    dsimp only
    split_ifs with h
    · exact Or.inr ⟨rfl, rfl⟩
    · exact Or.inl ⟨_, fun _ => by simpa using h, rfl⟩

theorem appendAudit_db (event : Audit.Event) :
    (s.appendAudit c event).2.db = s.db ∧ (s.appendAudit c event).2.now = s.now ∧
      (s.appendAudit c event).2.dbNow = s.dbNow := by
  unfold appendAudit
  cases c.failure with
  | some message => exact ⟨rfl, rfl, rfl⟩
  | none => split_ifs <;> exact ⟨rfl, rfl, rfl⟩

end State

namespace Db

variable {db db' : Db}

theorem insertKey_eq_ok {row : AgentKeyRow} (h : db.insertKey row = .ok db') :
    db' = { db with agentKeys := db.agentKeys ++ [row] } ∧
      (∀ r ∈ db.agentKeys, ¬(r.agentId = row.agentId ∧ r.publicKeyHex = row.publicKeyHex)) ∧
      (row.validTo = none → ∀ r ∈ db.agentKeys, ¬(r.agentId = row.agentId ∧ r.validTo = none)) := by
  unfold insertKey at h
  split_ifs at h with h₁ h₂
  cases h
  refine ⟨rfl, by simpa using h₁, ?_⟩
  intro hopen
  simpa [hopen] using h₂

theorem insertAgent_eq_ok {now : Timestamp} {agentId fingerprint org name : String}
    {publicKey : Bytes} {row : AgentRow}
    (h : db.insertAgent now agentId publicKey fingerprint org name = .ok (row, db')) :
    row = ⟨agentId, publicKey, fingerprint, org, name, now⟩ ∧
      db' = { db with
        agents := db.agents ++ [row]
        agentKeys := db.agentKeys ++ [⟨agentId, hexEncode publicKey, publicKey, now, none⟩] } ∧
      (∀ r ∈ db.agents, r.agentId ≠ agentId) ∧ (∀ r ∈ db.agents, r.publicKey ≠ publicKey) ∧
      ∀ r ∈ db.agentKeys, ¬(r.agentId = agentId ∧ r.validTo = none) := by
  unfold insertAgent at h
  split_ifs at h with h₁ h₂
  obtain ⟨db'', hkey, hout⟩ := except_map_eq_ok.mp h
  obtain ⟨rfl, -, hopen⟩ := insertKey_eq_ok hkey
  cases hout
  exact ⟨rfl, rfl, by simpa using h₁, by simpa using h₂, hopen rfl⟩

theorem insertRotation_eq_ok {agentId expectedHex newHex : String} {newKey : Bytes}
    {now : Timestamp} {row : AgentKeyRow}
    (h : db.insertRotation agentId expectedHex newHex newKey now = .ok (row, db')) :
    row = ⟨agentId, newHex, newKey, now, none⟩ ∧
      db' = { db with agentKeys :=
        db.agentKeys.map (closeKey agentId expectedHex (now + rotationGraceSecs * 1000000)) ++
          [row] } ∧
      (∃ r ∈ db.agentKeys, r.agentId = agentId ∧ r.publicKeyHex = expectedHex ∧
        r.validTo = none) ∧
      ∀ r ∈ db.agentKeys, ¬(r.agentId = agentId ∧ r.publicKeyHex = newHex) := by
  unfold insertRotation at h
  split_ifs at h with h₁
  obtain ⟨db'', hkey, hout⟩ := except_map_eq_ok.mp h
  obtain ⟨rfl, hunique, -⟩ := insertKey_eq_ok hkey
  cases hout
  refine ⟨rfl, rfl, by simpa using h₁, ?_⟩
  intro r hr hsame
  refine hunique (closeKey agentId expectedHex (now + rotationGraceSecs * 1000000) r)
    (List.mem_map_of_mem hr) ?_
  unfold closeKey
  split_ifs <;> exact hsame

theorem insertTransfer_eq_ok {now : Timestamp} {t : InsertTransfer} {row : TransferRow}
    (h : db.insertTransfer now t = .ok (row, db')) :
    row = { t with createdAt := now } ∧
      db' = { db with transfers := db.transfers ++ [row] } ∧
      ∀ r ∈ db.transfers, r.transferId ≠ t.transferId := by
  unfold insertTransfer at h
  split_ifs at h with h₁
  cases h
  exact ⟨rfl, rfl, by simpa using h₁⟩

theorem insertTicketNonce_eq_ok {nonce transferId : String} {expires : Int64}
    (h : db.insertTicketNonce nonce transferId expires = .ok db') :
    db' = { db with dataPlaneTicketNonces :=
      db.dataPlaneTicketNonces ++ [⟨nonce, transferId, expires⟩] } := by
  unfold insertTicketNonce at h
  split_ifs at h with h₁
  cases h
  rfl

end Db

section Frame

variable {env : Env} {s : State} {op : Op} {c : Choice}

/-- A projection of the tables that the two transactions on the ledger keep. -/
theorem exec_frame {β : Type} (f : Db → β) (part : Part) (h : op.writes ≠ some part)
    (hledger : part ≠ .ledger → ∀ (db : Db) a k, f { db with agents := a, agentKeys := k } = f db)
    (hregistration : part ≠ .registrationNonces →
      ∀ (db : Db) n, f { db with registrationNonces := n } = f db)
    (hrotate : part ≠ .rotateKeyNonces → ∀ (db : Db) n, f { db with rotateKeyNonces := n } = f db)
    (hintent : part ≠ .intentNonces → ∀ (db : Db) n, f { db with transferIntentNonces := n } = f db)
    (htransfers : part ≠ .transfers → ∀ (db : Db) t, f { db with transfers := t } = f db)
    (hticket : part ≠ .ticketNonces →
      ∀ (db : Db) n, f { db with dataPlaneTicketNonces := n } = f db) :
    f (exec env s op c).2.db = f s.db := by
  cases op with
  | insertAgent agentId publicKey fingerprint org name =>
    apply State.write_frame
    intro a db hout
    obtain ⟨-, rfl, -⟩ := Db.insertAgent_eq_ok hout
    exact hledger (fun he => h (by rw [he]; rfl)) s.db _ _
  | insertRotation agentId expectedHex newHex newKey now =>
    apply State.write_frame
    intro a db hout
    obtain ⟨-, rfl, -⟩ := Db.insertRotation_eq_ok hout
    exact hledger (fun he => h (by rw [he]; rfl)) s.db s.db.agents _
  | consumeNonce nonce publicKey =>
    apply State.write_frame
    rintro a db ⟨⟩
    exact hregistration (fun he => h (by rw [he]; rfl)) s.db _
  | consumeRotateNonce nonce agentId =>
    apply State.write_frame
    rintro a db ⟨⟩
    exact hrotate (fun he => h (by rw [he]; rfl)) s.db _
  | consumeIntentNonce nonce agentId =>
    apply State.write_frame
    rintro a db ⟨⟩
    exact hintent (fun he => h (by rw [he]; rfl)) s.db _
  | insertTransfer t =>
    apply State.write_frame
    intro a db hout
    obtain ⟨-, rfl, -⟩ := Db.insertTransfer_eq_ok hout
    exact htransfers (fun he => h (by rw [he]; rfl)) s.db _
  | markAccepted transferId =>
    apply State.write_frame
    rintro a db ⟨⟩
    exact htransfers (fun he => h (by rw [he]; rfl)) s.db _
  | markDelivered transferId =>
    apply State.write_frame
    rintro a db ⟨⟩
    exact htransfers (fun he => h (by rw [he]; rfl)) s.db _
  | persistReachableAt transferId endpoints =>
    apply State.write_frame
    rintro a db ⟨⟩
    exact htransfers (fun he => h (by rw [he]; rfl)) s.db _
  | insertTicketNonce nonce transferId expires =>
    apply State.write_frame
    intro a db hout
    obtain ⟨db', hins, hdb⟩ := except_map_eq_ok.mp hout
    obtain rfl := Db.insertTicketNonce_eq_ok hins
    cases hdb
    exact hticket (fun he => h (by rw [he]; rfl)) s.db _
  | blobPut transferId bytes =>
    change f (s.storeBlob c _).2.db = f s.db
    rw [(State.storeBlob_db _).1]
  | blobDelete transferId =>
    change f (s.storeBlob c _).2.db = f s.db
    rw [(State.storeBlob_db _).1]
  | auditAppend event =>
    change f (s.appendAudit c event).2.db = f s.db
    rw [(State.appendAudit_db event).1]
  | _ => rfl

theorem exec_transfers_frame (h : op.writes ≠ some .transfers) :
    (exec env s op c).2.db.transfers = s.db.transfers := by
  apply exec_frame Db.transfers .transfers h <;> simp

theorem exec_intentNonces_frame (h : op.writes ≠ some .intentNonces) :
    (exec env s op c).2.db.transferIntentNonces = s.db.transferIntentNonces := by
  apply exec_frame Db.transferIntentNonces .intentNonces h <;> simp

theorem exec_ledger_frame (h : op.writes ≠ some .ledger) :
    (exec env s op c).2.db.agents = s.db.agents ∧
      (exec env s op c).2.db.agentKeys = s.db.agentKeys := by
  constructor
  · apply exec_frame Db.agents .ledger h <;> simp
  · apply exec_frame Db.agentKeys .ledger h <;> simp

/-- A statement touches neither the blob store nor the audit log. -/
theorem State.write_stores {α : Type} {out : Except SqlxError (α × Db)} :
    (s.write c out).2.blobs = s.blobs ∧ (s.write c out).2.audit = s.audit := by
  rcases State.write_cases s c out with ⟨e, he⟩ | ⟨a, db, -, hw⟩
  · rw [he]
    exact ⟨rfl, rfl⟩
  · rw [hw]
    exact ⟨rfl, rfl⟩

theorem exec_blobs_frame (h : op.writes ≠ some .blobs) : (exec env s op c).2.blobs = s.blobs := by
  cases op with
  | blobPut transferId bytes => exact absurd rfl h
  | blobDelete transferId => exact absurd rfl h
  | auditAppend event =>
    rcases State.appendAudit_cases s c event with ⟨e, -, he⟩ | ⟨-, he⟩ <;> simp only [exec, he]
  | insertAgent _ _ _ _ _ | insertRotation _ _ _ _ _ | consumeNonce _ _ | consumeRotateNonce _ _
  | consumeIntentNonce _ _ | insertTransfer _ | markAccepted _ | markDelivered _
  | persistReachableAt _ _ | insertTicketNonce _ _ _ => exact State.write_stores.1
  | _ => rfl

theorem exec_audit_frame (h : op.writes ≠ some .audit) : (exec env s op c).2.audit = s.audit := by
  cases op with
  | auditAppend event => exact absurd rfl h
  | blobPut transferId bytes => exact State.storeBlob_audit _
  | blobDelete transferId => exact State.storeBlob_audit _
  | insertAgent _ _ _ _ _ | insertRotation _ _ _ _ _ | consumeNonce _ _ | consumeRotateNonce _ _
  | consumeIntentNonce _ _ | insertTransfer _ | markAccepted _ | markDelivered _
  | persistReachableAt _ _ | insertTicketNonce _ _ _ => exact State.write_stores.2
  | _ => rfl

/-- No operation moves a clock. -/
theorem exec_clocks : (exec env s op c).2.now = s.now ∧ (exec env s op c).2.dbNow = s.dbNow := by
  cases op with
  | blobPut transferId bytes => exact (State.storeBlob_db _).2
  | blobDelete transferId => exact (State.storeBlob_db _).2
  | auditAppend event => exact (State.appendAudit_db event).2
  | insertAgent _ _ _ _ _ | insertRotation _ _ _ _ _ | consumeNonce _ _ | consumeRotateNonce _ _
  | consumeIntentNonce _ _ | insertTransfer _ | markAccepted _ | markDelivered _
  | persistReachableAt _ _ | insertTicketNonce _ _ _ => exact State.write_clocks
  | _ => exact ⟨rfl, rfl⟩

end Frame

end AgentExchange.ControlPlane
