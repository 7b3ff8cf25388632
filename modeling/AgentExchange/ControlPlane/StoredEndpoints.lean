import AgentExchange.ControlPlane.Bodies

/-!
# Endpoint lists in the database

The list of a transfer is one `jsonb` value. Postgres keeps the elements of an array in
their order and the entries of an object in an order of its own, so what is read is not the
text that was written; the list that comes back is.
-/
namespace AgentExchange.ControlPlane

open Library

namespace Document

/-- The same value, with the entries of its objects in another order. -/
inductive Reordered : Document → Document → Prop
  | refl (d : Document) : Reordered d d
  | array {ds ds' : List Document} (h : List.Forall₂ Reordered ds ds') :
    Reordered (array ds) (array ds')
  | object {es es' es'' : Entries} (hperm : es.Perm es')
      (hkeys : es'.map Prod.fst = es''.map Prod.fst)
      (hvalues : List.Forall₂ Reordered (es'.map Prod.snd) (es''.map Prod.snd)) :
    Reordered (object es) (object es'')

/-- A reader that does not see the order of the entries. -/
def OrderFree {α : Type} (read : Document → Option α) : Prop :=
  ∀ d d', Reordered d d' → read d' = read d

theorem orderFree_readString : OrderFree readString := by
  rintro _ _ (_ | _ | _) <;> rfl

theorem orderFree_readInt {α : Type} (lower upper : ℤ) (ofInt : ℤ → α) :
    OrderFree (readInt lower upper ofInt) := by
  rintro _ _ (_ | _ | _) <;> rfl

theorem OrderFree.readOption {α : Type} {read : Document → Option α} (h : OrderFree read) :
    OrderFree (readOption read) := by
  rintro _ _ (_ | ⟨hds⟩ | ⟨hperm, hkeys, hvalues⟩)
  · rfl
  · exact congrArg (Option.map some) (h _ _ (.array hds))
  · exact congrArg (Option.map some) (h _ _ (.object hperm hkeys hvalues))

theorem OrderFree.mapM {α : Type} {read : Document → Option α} (h : OrderFree read)
    {ds ds' : List Document} (hds : List.Forall₂ Reordered ds ds') :
    ds'.mapM read = ds.mapM read := by
  induction hds with
  | nil => rfl
  | cons hd _ ih => rw [List.mapM_cons, List.mapM_cons, h _ _ hd, ih]

theorem OrderFree.readVec {α : Type} {read : Document → Option α} (h : OrderFree read) :
    OrderFree (readVec read) := by
  rintro _ _ (_ | ⟨hds⟩ | _)
  · rfl
  · exact h.mapM hds
  · rfl

end Document

open Document

namespace Entries

/-- The values under one key. -/
def values (entries : Entries) (key : String) : List Document :=
  (entries.filter (·.1 = key)).map Prod.snd

theorem value_eq (entries : Entries) (key : String) :
    entries.value key = match entries.values key with
      | [] => some none
      | [v] => some (some v)
      | _ => none := by
  unfold value values
  generalize entries.filter (·.1 = key) = found
  rcases found with _ | ⟨_, _ | _⟩ <;> rfl

/-- The same entries in another order, with values that are the same but for the order. -/
def Reordered (es es' : Entries) : Prop :=
  ∃ mid : Entries, es.Perm mid ∧ mid.map Prod.fst = es'.map Prod.fst ∧
    List.Forall₂ Document.Reordered (mid.map Prod.snd) (es'.map Prod.snd)

theorem forall₂_values {es es' : Entries} (hkeys : es.map Prod.fst = es'.map Prod.fst)
    (hvalues : List.Forall₂ Document.Reordered (es.map Prod.snd) (es'.map Prod.snd))
    (key : String) : List.Forall₂ Document.Reordered (es.values key) (es'.values key) := by
  induction es generalizing es' with
  | nil =>
    obtain rfl : es' = [] := by simpa using hkeys.symm
    exact .nil
  | cons e es ih =>
    cases es' with
    | nil => cases hkeys
    | cons e' es' =>
      obtain ⟨hkey, hkeys⟩ := List.cons.inj hkeys
      obtain ⟨hvalue, hvalues⟩ := List.forall₂_cons.mp hvalues
      have hrest := ih hkeys hvalues
      unfold values at hrest ⊢
      by_cases he : e.1 = key
      · rw [List.filter_cons_of_pos (by simpa using he),
          List.filter_cons_of_pos (by simpa using hkey.symm.trans he)]
        exact .cons hvalue hrest
      · rw [List.filter_cons_of_neg (by simpa using he),
          List.filter_cons_of_neg (by simpa using hkey ▸ he)]
        exact hrest

/-- A key that occurs once has its value in any order of the entries. -/
theorem value_reordered {es es' : Entries} (h : es.Reordered es') (key : String) :
    Option.Rel (Option.Rel Document.Reordered) (es.value key) (es'.value key) := by
  obtain ⟨mid, hperm, hkeys, hvalues⟩ := h
  have hperm' : (es.values key).Perm (mid.values key) := (hperm.filter _).map _
  have hrel := forall₂_values hkeys hvalues key
  rw [value_eq, value_eq]
  generalize mid.values key = vs at hperm' hrel
  generalize es.values key = us at hperm'
  generalize es'.values key = ws at hrel
  rcases hrel with _ | ⟨hv, _ | _⟩
  · rw [hperm'.eq_nil]
    exact .some .none
  · rw [List.perm_singleton.mp hperm']
    exact .some (.some hv)
  · have hlen := hperm'.length_eq
    rcases us with _ | ⟨u, _ | ⟨u', us⟩⟩
    · cases hlen
    · cases hlen
    · exact .none

section Fields

variable {α : Type} {read : Document → Option α} {es es' : Entries}

theorem field_reordered (hread : OrderFree read) (h : es.Reordered es') (key : String) :
    es'.field key read = es.field key read := by
  unfold field
  have hvalue := value_reordered h key
  revert hvalue
  generalize es.value key = v
  generalize es'.value key = v'
  rintro (hv | _)
  · rcases hv with hd | _
    · exact hread _ _ hd
    · rfl
  · rfl

theorem fieldOr_reordered (hread : OrderFree read) (h : es.Reordered es') (key : String)
    (default : α) : es'.fieldOr key read default = es.fieldOr key read default := by
  unfold fieldOr
  have hvalue := value_reordered h key
  revert hvalue
  generalize es.value key = v
  generalize es'.value key = v'
  rintro (hv | _)
  · rcases hv with hd | _
    · exact hread _ _ hd
    · rfl
  · rfl

end Fields

end Entries

/-! ## Health blocks and endpoints -/

/-- Only an object with one entry, whose value is null, names a variant. -/
theorem readHealthStatus_object {es : Entries} (h : ∀ key, es ≠ [(key, .null)]) :
    readHealthStatus (.object es) = none := by
  unfold readHealthStatus
  split
  · rename_i heq
    cases heq
  · rename_i heq
    cases heq
    exact absurd rfl (h _)
  · rename_i heq
    cases heq
    exact absurd rfl (h _)
  · rfl

theorem orderFree_readHealthStatus : OrderFree readHealthStatus := by
  rintro _ _ (_ | _ | @⟨es, mid, es', hperm, hkeys, hvalues⟩)
  · rfl
  · rfl
  · have hsingle (key : String) : mid = [(key, .null)] ↔ es' = [(key, .null)] := by
      constructor
      · rintro rfl
        rcases es' with _ | ⟨⟨key', value⟩, _ | ⟨e, es'⟩⟩
        · cases hkeys
        · obtain rfl : key = key' := by simpa using hkeys
          obtain ⟨_ | _ | _, -⟩ := List.forall₂_cons.mp hvalues
          rfl
        · simp at hkeys
      · rintro rfl
        rcases mid with _ | ⟨⟨key', value⟩, _ | ⟨e, mid⟩⟩
        · cases hkeys
        · obtain rfl : key' = key := by simpa using hkeys
          obtain ⟨_ | _ | _, -⟩ := List.forall₂_cons.mp hvalues
          rfl
        · simp at hkeys
    have hiff (key : String) : es = [(key, .null)] ↔ es' = [(key, .null)] := by
      rw [← hsingle]
      constructor
      · rintro rfl
        exact List.perm_singleton.mp hperm.symm
      · rintro rfl
        exact List.perm_singleton.mp hperm
    by_cases h : ∃ key, es = [(key, .null)]
    · obtain ⟨key, rfl⟩ := h
      rw [(hiff key).mp rfl]
    · have h' := not_exists.mp h
      rw [readHealthStatus_object h', readHealthStatus_object fun key => (hiff key).not.mp (h' key)]

theorem orderFree_readEndpointHealth : OrderFree readEndpointHealth := by
  rintro _ _ (_ | _ | @⟨es, mid, es', hperm, hkeys, hvalues⟩)
  · rfl
  · rfl
  · have h : Entries.Reordered es es' := ⟨mid, hperm, hkeys, hvalues⟩
    simp only [readEndpointHealth, readI64, readU8]
    rw [Entries.field_reordered orderFree_readHealthStatus h,
      Entries.fieldOr_reordered (orderFree_readInt _ _ _) h,
      Entries.fieldOr_reordered (orderFree_readInt _ _ _) h,
      Entries.fieldOr_reordered (orderFree_readInt _ _ _).readOption h]

theorem orderFree_readEndpoint : OrderFree readEndpoint := by
  rintro _ _ (_ | _ | @⟨es, mid, es', hperm, hkeys, hvalues⟩)
  · rfl
  · rfl
  · have h : Entries.Reordered es es' := ⟨mid, hperm, hkeys, hvalues⟩
    simp only [readEndpoint, readI64, readI32]
    rw [Entries.field_reordered orderFree_readString h,
      Entries.field_reordered orderFree_readString h,
      Entries.fieldOr_reordered (orderFree_readInt _ _ _) h,
      Entries.fieldOr_reordered (orderFree_readInt _ _ _).readOption h,
      Entries.fieldOr_reordered orderFree_readEndpointHealth.readOption h]

/-- `#[serde(skip_serializing_if = "Option::is_none")]`. -/
def Entries.optional {α : Type} (key : String) (toDocument : α → Document) : Option α → Entries
  | some a => [(key, toDocument a)]
  | none => []

def textDocument (s : String) : Document := .string (Utf16.encode s)

def healthStatusDocument : HealthStatus → Document
  | .healthy => textDocument "healthy"
  | .unhealthy => textDocument "unhealthy"

def endpointHealthDocument (h : EndpointHealth) : Document :=
  .object ([("status", healthStatusDocument h.status),
    ("consecutive_fails", .integer h.consecutiveFails.toNat),
    ("consecutive_successes", .integer h.consecutiveSuccesses.toNat)] ++
    Entries.optional "last_probe_unix" (fun n : Int64 => .integer n.toInt) h.lastProbeUnix)

def endpointDocument (ep : Endpoint) : Document :=
  .object ([("kind", textDocument ep.kind), ("url", textDocument ep.url),
    ("priority", .integer ep.priority.toInt)] ++
    Entries.optional "health_hint_unix" (fun n : Int64 => .integer n.toInt) ep.healthHintUnix ++
    Entries.optional "health" endpointHealthDocument ep.health)

/-- What is left of a stored value: `unwrap_or_default` makes an empty list of one that cannot be
read. -/
def storedEndpoints (json : Document) : List Endpoint :=
  (readVec readEndpoint json).getD []

theorem readI64_toInt (n : Int64) : readI64 (.integer n.toInt) = some n := by
  have hn := n.toInt_lt
  have hn' := n.le_toInt
  rw [readI64, readInt, if_pos (by omega), Int64.ofInt_toInt]

theorem readOption_some_readI64 (n : Int64) :
    readOption readI64 (.integer n.toInt) = some (some n) := by
  rw [show readOption readI64 (.integer n.toInt) = (readI64 (.integer n.toInt)).map some from rfl,
    readI64_toInt, Option.map_some]

theorem readI32_toInt (n : Int32) : readI32 (.integer n.toInt) = some n := by
  have hn := n.toInt_lt
  have hn' := n.le_toInt
  rw [readI32, readInt, if_pos (by omega), Int32.ofInt_toInt]

theorem readU8_toNat (n : UInt8) : readU8 (.integer n.toNat) = some n := by
  have hn := n.toNat_lt
  rw [readU8, readInt, if_pos (by omega), Int.toNat_natCast, UInt8.ofNat_toNat]

theorem readString_textDocument (s : String) : readString (textDocument s) = some s :=
  Utf16.toText_encode s

theorem readHealthStatus_toDocument (status : HealthStatus) :
    readHealthStatus (healthStatusDocument status) = some status := by
  cases status <;> decide +kernel

theorem readEndpointHealth_toDocument (h : EndpointHealth) :
    readEndpointHealth (endpointHealthDocument h) = some h := by
  obtain ⟨status, fails, successes, _ | last⟩ := h <;>
    simp [readEndpointHealth, endpointHealthDocument, Entries.field, Entries.fieldOr,
      Entries.value, Entries.optional, readHealthStatus_toDocument, readU8_toNat,
      readOption_some_readI64]

theorem readOption_endpointHealthDocument (h : EndpointHealth) :
    readOption readEndpointHealth (endpointHealthDocument h) = some (some h) := by
  rw [show readOption readEndpointHealth (endpointHealthDocument h) =
    (readEndpointHealth (endpointHealthDocument h)).map some from rfl,
    readEndpointHealth_toDocument, Option.map_some]

theorem readEndpoint_toDocument (ep : Endpoint) : readEndpoint (endpointDocument ep) = some ep := by
  obtain ⟨kind, url, priority, _ | hint, _ | health⟩ := ep <;>
    simp [readEndpoint, endpointDocument, Entries.field, Entries.fieldOr, Entries.value,
      Entries.optional, readString_textDocument, readI32_toInt, readOption_some_readI64,
      readOption_endpointHealthDocument]

theorem mapM_readEndpoint (endpoints : List Endpoint) :
    (endpoints.map endpointDocument).mapM readEndpoint = some endpoints := by
  induction endpoints with
  | nil => rfl
  | cons ep endpoints ih => rw [List.map_cons, List.mapM_cons, readEndpoint_toDocument, ih]; rfl

/-- A stored list is read back as it was written, whatever the order of the entries. -/
theorem storedEndpoints_of_reordered {endpoints : List Endpoint} {json : Document}
    (h : Document.Reordered (.array (endpoints.map endpointDocument)) json) :
    storedEndpoints json = endpoints := by
  rw [storedEndpoints, orderFree_readEndpoint.readVec _ _ h]
  rw [show readVec readEndpoint (.array (endpoints.map endpointDocument)) =
    (endpoints.map endpointDocument).mapM readEndpoint from rfl, mapM_readEndpoint,
    Option.getD_some]

end AgentExchange.ControlPlane
