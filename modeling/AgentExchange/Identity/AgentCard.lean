import AgentExchange.Core.Deserialize
import AgentExchange.Identity.DidWeb

/-!
# Reading an agent card

`Deserialize` and `Serialize` as they are derived for the payload of an agent card. What
is written reads back.
-/
namespace AgentExchange.Identity

open Json (DeError StructField structField visitStruct)
open Library (orError)

namespace PublicKeyDeclaration

/-- A declaration being read. -/
structure Partial where
  keyType : Option String := none
  publicKeyMultibase : Option String := none

def fields : List (StructField Partial) :=
  [structField "type" Partial.keyType (fun s x => { s with keyType := some x }) Json.readString,
    structField "publicKeyMultibase" Partial.publicKeyMultibase
      (fun s x => { s with publicKeyMultibase := some x }) Json.readString]

def fromJson (v : Json) : Except DeError PublicKeyDeclaration := do
  let s ← visitStruct "struct PublicKeyDeclaration with 2 elements" fields {} v
  let keyType ← orError s.keyType (.missingField "type")
  let publicKeyMultibase ← orError s.publicKeyMultibase (.missingField "publicKeyMultibase")
  pure ⟨keyType, publicKeyMultibase⟩

def toJson (k : PublicKeyDeclaration) : Json :=
  .obj [("type", .str k.keyType), ("publicKeyMultibase", .str k.publicKeyMultibase)]

end PublicKeyDeclaration

namespace Endpoints

structure Partial where
  controlPlane : Option (Option String) := none
  dataPlanes : Option (List String) := none

def fields : List (StructField Partial) :=
  [structField "control_plane" Partial.controlPlane (fun s x => { s with controlPlane := some x })
      (Json.readOption Json.readString),
    structField "data_planes" Partial.dataPlanes (fun s x => { s with dataPlanes := some x })
      (Json.readVec Json.readString) true]

/-- A missing option is none. -/
def fromJson (v : Json) : Except DeError Endpoints := do
  let s ← visitStruct "struct Endpoints with 2 elements" fields {} v
  pure ⟨s.controlPlane.getD none, s.dataPlanes.getD []⟩

def toJson (e : Endpoints) : Json :=
  .obj [("control_plane", (e.controlPlane.map Json.str).getD .null),
    ("data_planes", .arr (e.dataPlanes.map Json.str))]

end Endpoints

def capabilitiesFromJson (v : Json) : Except DeError CapabilitySet :=
  (Json.readVec Json.readString v).map CapabilitySet.fromStringArray

namespace AgentCardPayload

structure Partial where
  iss : Option String := none
  sub : Option String := none
  iat : Option Int64 := none
  exp : Option Int64 := none
  agentId : Option String := none
  publicKey : Option PublicKeyDeclaration := none
  capabilities : Option CapabilitySet := none
  endpoints : Option Endpoints := none

def fields : List (StructField Partial) :=
  [structField "iss" Partial.iss (fun s x => { s with iss := some x }) Json.readString,
    structField "sub" Partial.sub (fun s x => { s with sub := some x }) Json.readString,
    structField "iat" Partial.iat (fun s x => { s with iat := some x }) Json.readI64,
    structField "exp" Partial.exp (fun s x => { s with exp := some x }) Json.readI64,
    structField "agent_id" Partial.agentId (fun s x => { s with agentId := some x })
      Json.readString,
    structField "public_key" Partial.publicKey (fun s x => { s with publicKey := some x })
      PublicKeyDeclaration.fromJson,
    structField "capabilities" Partial.capabilities (fun s x => { s with capabilities := some x })
      capabilitiesFromJson true,
    structField "endpoints" Partial.endpoints (fun s x => { s with endpoints := some x })
      Endpoints.fromJson true]

def fromJson (v : Json) : Except DeError AgentCardPayload := do
  let s ← visitStruct "struct AgentCardPayload with 8 elements" fields {} v
  let iss ← orError s.iss (.missingField "iss")
  let sub ← orError s.sub (.missingField "sub")
  let iat ← orError s.iat (.missingField "iat")
  let exp ← orError s.exp (.missingField "exp")
  let agentId ← orError s.agentId (.missingField "agent_id")
  let publicKey ← orError s.publicKey (.missingField "public_key")
  pure ⟨iss, sub, iat, exp, agentId, publicKey, s.capabilities.getD .empty, s.endpoints.getD {}⟩

def toJson (p : AgentCardPayload) : Json :=
  .obj [("iss", .str p.iss), ("sub", .str p.sub), ("iat", .num (.ofInt64 p.iat)),
    ("exp", .num (.ofInt64 p.exp)), ("agent_id", .str p.agentId),
    ("public_key", p.publicKey.toJson),
    ("capabilities", .arr (p.capabilities.toStringArray.map Json.str)),
    ("endpoints", p.endpoints.toJson)]

end AgentCardPayload

theorem readVec_strings (xs : List String) :
    Json.readVec Json.readString (.arr (xs.map Json.str)) = .ok xs := by
  change (xs.map Json.str).mapM Json.readString = _
  induction xs with
  | nil => rfl
  | cons x xs ih =>
    rw [List.map_cons, List.mapM_cons, ih]
    rfl

theorem PublicKeyDeclaration.fromJson_toJson (k : PublicKeyDeclaration) :
    fromJson k.toJson = .ok k := rfl

theorem Endpoints.fromJson_toJson (e : Endpoints) : fromJson e.toJson = .ok e := by
  have hcontrol : Json.readOption Json.readString ((e.controlPlane.map Json.str).getD .null) =
      .ok e.controlPlane := by
    cases e.controlPlane <;> rfl
  have hvisit : visitStruct "struct Endpoints with 2 elements" fields {} e.toJson =
      .ok ⟨some e.controlPlane, some e.dataPlanes⟩ := by
    simp [visitStruct, toJson, fields, Json.visitMap, structField, Library.check, hcontrol,
      readVec_strings, Except.map, bind, Except.bind]
  simp [fromJson, hvisit, bind, Except.bind, pure, Except.pure]

theorem readI64_ofInt64 (n : Int64) : Json.readI64 (.num (.ofInt64 n)) = .ok n := by
  have hlt : n.toInt < 2 ^ 63 := n.toInt_lt
  simp only [Json.readI64, Number.ofInt64, if_pos hlt, Int64.ofInt_toInt]

/-- A payload whose capabilities are all known reads back as it was written. -/
theorem AgentCardPayload.fromJson_toJson (p : AgentCardPayload)
    (h : CapabilitySet.fromStringArray p.capabilities.toStringArray = p.capabilities) :
    fromJson p.toJson = .ok p := by
  have hcapabilities : capabilitiesFromJson (.arr (p.capabilities.toStringArray.map Json.str)) =
      .ok p.capabilities := by
    rw [capabilitiesFromJson, readVec_strings]
    exact congrArg Except.ok h
  have hvisit : visitStruct "struct AgentCardPayload with 8 elements" fields {} p.toJson =
      .ok ⟨some p.iss, some p.sub, some p.iat, some p.exp, some p.agentId, some p.publicKey,
        some p.capabilities, some p.endpoints⟩ := by
    simp [visitStruct, toJson, fields, Json.visitMap, structField, Library.check, Json.readString,
      readI64_ofInt64, PublicKeyDeclaration.fromJson_toJson, hcapabilities,
      Endpoints.fromJson_toJson, Except.map, bind, Except.bind]
  simp [fromJson, hvisit, orError, bind, Except.bind, pure, Except.pure]

end AgentExchange.Identity
