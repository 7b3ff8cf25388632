import AgentExchange.Core.CanonicalJson

/-!
# Audit events

An event is hashed through its canonical bytes: a JSON object with a fixed order
of keys whose payload is written canonically. The timestamp's text and the digest
come from other crates and are parameters; the former is injective because it
spells out the full precision of the timestamp and its offset.
-/
namespace AgentExchange.Audit

open Library Json

/-- `time::OffsetDateTime`: an instant and the offset it is shown in. -/
structure OffsetDateTime where
  unixNanos : ℤ
  offsetMinutes : ℤ := 0
  deriving DecidableEq

inductive EventKind where
  | agentRegistered
  | agentRevoked
  | transferInitiated
  | transferPolicyDecision
  | transferScannerVerdict
  | transferAccepted
  | transferDelivered
  | transferRejected
  | transferExpired
  | deferredDecisionRequested
  | signedDecisionReceipt
  deriving DecidableEq

def EventKind.asStr : EventKind → String
  | .agentRegistered => "agent_registered"
  | .agentRevoked => "agent_revoked"
  | .transferInitiated => "transfer_initiated"
  | .transferPolicyDecision => "transfer_policy_decision"
  | .transferScannerVerdict => "transfer_scanner_verdict"
  | .transferAccepted => "transfer_accepted"
  | .transferDelivered => "transfer_delivered"
  | .transferRejected => "transfer_rejected"
  | .transferExpired => "transfer_expired"
  | .deferredDecisionRequested => "deferred_decision_requested"
  | .signedDecisionReceipt => "signed_decision_receipt"

theorem EventKind.asStr_inj {a b : EventKind} (h : a.asStr = b.asStr) : a = b := by
  cases a <;> cases b <;> first | rfl | exact absurd h (by decide)

theorem EventKind.quote_not_mem (k : EventKind) : '"' ∉ k.asStr.toList := by
  cases k <;> decide

/-- The input half of an audit entry: what the caller supplies. -/
structure Event where
  kind : EventKind
  actor : String
  subject : String
  payload : Json

inductive AuditError where
  | io (message : String)
  | serialization (message : String)
  | chainBroken (position : ℕ) (expected found : String)
  | hashMismatch (position : ℕ) (stored recomputed : String)
  | invalidEvent (message : String)
  deriving DecidableEq

def genesisHead : String := "0000000000000000000000000000000000000000000000000000000000000000"

/-- What the log takes from other crates. -/
structure Primitives where
  floatText : FloatText
  rfc3339 : OffsetDateTime → Except String String
  rfc3339_inj : ∀ a b text, rfc3339 a = .ok text → rfc3339 b = .ok text → a = b
  sha256 : Bytes → Bytes

def isObject : Json → Bool
  | .obj _ => true
  | _ => false

section Canonical

variable (P : Primitives)

/-- The fixed text around the six values. -/
def canonicalFrame (kind actor subject payload ts prev : String) : String :=
  "\x7b\"kind\":\"" ++ kind ++ "\",\"actor\":" ++ actor ++ ",\"subject\":" ++ subject ++
    ",\"payload\":" ++ payload ++ ",\"ts\":" ++ ts ++ ",\"prev\":" ++ prev ++ "\x7d"

def canonicalText (e : Event) (ts prevHash : String) : String :=
  canonicalFrame e.kind.asStr (jsonString e.actor) (jsonString e.subject)
    (writeCanonical P.floatText e.payload) (jsonString ts) (jsonString prevHash)

def Event.canonicalBytes (e : Event) (ts : OffsetDateTime) (prevHash : String) :
    Except AuditError Bytes := do
  if !isObject e.payload then
    throw (.invalidEvent "payload must be a JSON object")
  let tsStr ← (P.rfc3339 ts).mapError fun err => .invalidEvent ("ts format: " ++ err)
  pure (intoBytes (canonicalText P e tsStr prevHash))

def Event.computeHash (e : Event) (ts : OffsetDateTime) (prevHash : String) :
    Except AuditError String := do
  let bytes ← e.canonicalBytes P ts prevHash
  pure (hexEncode (P.sha256 bytes))

/-- Events that say the same: payloads may list the keys of an object in another order. -/
def Event.Agrees (a b : Event) : Prop :=
  a.kind = b.kind ∧ a.actor = b.actor ∧ a.subject = b.subject ∧ Json.Agrees a.payload b.payload

theorem kind_append_inj {a b : EventKind} {u v : List Char}
    (h : a.asStr.toList ++ ("\",\"actor\":".toList ++ u) =
      b.asStr.toList ++ ("\",\"actor\":".toList ++ v)) : a = b ∧ u = v := by
  have hquote : "\",\"actor\":".toList = '"' :: ",\"actor\":".toList := by decide
  rw [hquote] at h
  obtain ⟨hkind, hrest⟩ := append_sep_inj a.quote_not_mem b.quote_not_mem h
  exact ⟨EventKind.asStr_inj (String.toList_inj.mp hkind), List.append_cancel_left hrest⟩

theorem delimited_ts (u : List Char) : Delimited stops (",\"ts\":".toList ++ u) := by
  have hcomma : ",\"ts\":".toList = ',' :: "\"ts\":".toList := by decide
  rw [hcomma]
  exact delimited_cons stops_comma

theorem toList_canonicalFrame (kind actor subject payload ts prev : String) :
    (canonicalFrame kind actor subject payload ts prev).toList =
      "\x7b\"kind\":\"".toList ++ (kind.toList ++ ("\",\"actor\":".toList ++
        (actor.toList ++ (",\"subject\":".toList ++ (subject.toList ++
        (",\"payload\":".toList ++ (payload.toList ++ (",\"ts\":".toList ++
        (ts.toList ++ (",\"prev\":".toList ++ (prev.toList ++ "\x7d".toList))))))))))) := by
  unfold canonicalFrame
  simp only [String.toList_append]
  simp only [List.append_assoc]

/-- Equal canonical texts come from agreeing events with one timestamp text and one
predecessor, whatever the strings hold. -/
theorem canonicalText_inj {a b : Event} {ts ts' prev prev' : String}
    (h : canonicalText P a ts prev = canonicalText P b ts' prev') :
    a.Agrees b ∧ ts = ts' ∧ prev = prev' := by
  have hl := congrArg String.toList h
  rw [canonicalText, canonicalText, toList_canonicalFrame, toList_canonicalFrame] at hl
  replace hl := List.append_cancel_left hl
  obtain ⟨hkind, hl⟩ := kind_append_inj hl
  obtain ⟨hactor, hl⟩ := jsonString_append_inj hl
  replace hl := List.append_cancel_left hl
  obtain ⟨hsubject, hl⟩ := jsonString_append_inj hl
  replace hl := List.append_cancel_left hl
  obtain ⟨hpayload, hl⟩ := writeCanonical_append_inj (delimited_ts _) (delimited_ts _) hl
  replace hl := List.append_cancel_left hl
  obtain ⟨hts, hl⟩ := jsonString_append_inj hl
  replace hl := List.append_cancel_left hl
  obtain ⟨hprev, -⟩ := jsonString_append_inj hl
  exact ⟨⟨hkind, hactor, hsubject, hpayload⟩, hts, hprev⟩

theorem isObject_sortKeys (j : Json) : isObject (sortKeys j) = isObject j := by
  cases j <;> rfl

theorem isObject_eq_of_agrees {a b : Json} (h : Json.Agrees a b) : isObject a = isObject b := by
  rw [← isObject_sortKeys a, ← isObject_sortKeys b, h]

theorem Event.canonicalBytes_eq_ok {e : Event} {ts : OffsetDateTime} {prev : String}
    {bytes : Bytes} :
    e.canonicalBytes P ts prev = .ok bytes ↔ isObject e.payload = true ∧
      ∃ text, P.rfc3339 ts = .ok text ∧ intoBytes (canonicalText P e text prev) = bytes := by
  unfold canonicalBytes
  cases hobj : isObject e.payload <;> cases hts : P.rfc3339 ts <;>
    simp [Except.mapError, bind, Except.bind, throw, throwThe, MonadExceptOf.throw, pure,
      Except.pure]

/-- The canonical bytes determine the event up to the order of payload keys, the timestamp
and the predecessor. -/
theorem Event.agrees_of_canonicalBytes {a b : Event} {ts ts' : OffsetDateTime}
    {prev prev' : String} {bytes : Bytes} (ha : a.canonicalBytes P ts prev = .ok bytes)
    (hb : b.canonicalBytes P ts' prev' = .ok bytes) : a.Agrees b ∧ ts = ts' ∧ prev = prev' := by
  obtain ⟨-, text, htext, hbytes⟩ := (canonicalBytes_eq_ok P).mp ha
  obtain ⟨-, text', htext', hbytes'⟩ := (canonicalBytes_eq_ok P).mp hb
  obtain ⟨hevent, rfl, hprev⟩ := canonicalText_inj P
    (intoBytes_inj.mp (hbytes.trans hbytes'.symm))
  exact ⟨hevent, P.rfc3339_inj ts ts' text htext htext', hprev⟩

theorem canonicalText_congr {a b : Event} (h : a.Agrees b) (ts prev : String) :
    canonicalText P a ts prev = canonicalText P b ts prev := by
  obtain ⟨hkind, hactor, hsubject, hpayload⟩ := h
  rw [canonicalText, canonicalText, hkind, hactor, hsubject, writeCanonical_eq_iff.mpr hpayload]

theorem Event.computeHash_congr {a b : Event} (h : a.Agrees b) (ts : OffsetDateTime)
    (prev : String) : a.computeHash P ts prev = b.computeHash P ts prev := by
  rw [computeHash, computeHash, canonicalBytes, canonicalBytes, isObject_eq_of_agrees h.2.2.2]
  simp only [canonicalText_congr P h]

theorem Event.computeHash_eq_ok {e : Event} {ts : OffsetDateTime} {prev hash : String} :
    e.computeHash P ts prev = .ok hash ↔
      ∃ bytes, e.canonicalBytes P ts prev = .ok bytes ∧ hexEncode (P.sha256 bytes) = hash := by
  rw [computeHash, except_bind_eq_ok]
  simp [pure, Except.pure]

/-- Without collisions of the digest, equal hashes come from agreeing events. -/
theorem Event.agrees_of_computeHash (hsha : Function.Injective P.sha256) {a b : Event}
    {ts ts' : OffsetDateTime} {prev prev' hash : String} (ha : a.computeHash P ts prev = .ok hash)
    (hb : b.computeHash P ts' prev' = .ok hash) : a.Agrees b ∧ ts = ts' ∧ prev = prev' := by
  obtain ⟨bytes, hbytes, hhash⟩ := (computeHash_eq_ok P).mp ha
  obtain ⟨bytes', hbytes', hhash'⟩ := (computeHash_eq_ok P).mp hb
  obtain rfl : bytes = bytes' := hsha (hexEncode_inj (hhash.trans hhash'.symm))
  exact agrees_of_canonicalBytes P hbytes hbytes'

end Canonical

end AgentExchange.Audit
