import AgentExchange.Identity.Binding

/-!
# The A2A bridge

An inbound A2A task carries a chain of hops, each with a JWS of its sender. The
bridge bounds the depth, refuses a sender that appears twice, verifies each JWS
under its sender's key and hands the hops on. What the signed payloads say is left
to the caller.
-/
namespace AgentExchange.Bridge

open Library

def maxDelegationDepth : ℕ := 3

inductive BridgeError where
  | unsupportedA2A (message : String)
  | delegationTooDeep (depth limit : ℕ)
  | delegationCycle (agent : String)
  | a2aUnsigned
  | jwsHopFailed (hopIndex : ℕ) (source : Jws.JwsError)
  | aexInvariant (message : String)
  deriving DecidableEq

structure A2AHop where
  fromAgent : String
  toAgent : String
  jws : String
  attachmentB64 : Option String := none
  deriving DecidableEq

structure A2ATask where
  taskId : String
  taskType : Option String := none
  hops : List A2AHop

structure InboundAexIntent where
  originalSender : AgentId
  finalRecipient : AgentId
  chain : List (AgentId × AgentId)
  attachment : Option Bytes
  deriving DecidableEq

/-- What the caller's `FnMut` answers at each hop. -/
abbrev KeyLookup := ℕ → String → Except Jws.JwsError (Option Jws.VerifierKey)

/-- The crates behind the bridge. -/
structure Libraries extends Jws.Libraries where
  /-- `STANDARD.decode` of the base64 crate -/
  standardDecode : String → Except String Bytes

/-- Cycle detection, on the senders only. -/
def checkCycle (seen : List String) : List A2AHop → Except BridgeError Unit
  | [] => pure ()
  | hop :: rest => do
    check (hop.fromAgent ∉ seen) (.delegationCycle hop.fromAgent)
    checkCycle (hop.fromAgent :: seen) rest

/-- The closure handed to `verify`: only the sender's own `kid` is looked up. -/
def hopKey (keyLookup : KeyLookup) (i : ℕ) (hop : A2AHop) (kid : String) :
    Except Jws.JwsError (Option Jws.VerifierKey) :=
  if kid ≠ hop.fromAgent then
    .error (.kidAlgMismatch kid "?" ("expected kid " ++ hop.fromAgent))
  else keyLookup i kid

def verifyHops (lib : Libraries) (keyLookup : KeyLookup) (i : ℕ) :
    List A2AHop → Except BridgeError Unit
  | [] => pure ()
  | hop :: rest => do
    check (hop.jws ≠ "") .a2aUnsigned
    let _ ← (Jws.verify lib.toLibraries hop.jws (hopKey keyLookup i hop)).mapError
      (.jwsHopFailed i)
    verifyHops lib keyLookup (i + 1) rest

def agentId (what : String) (s : String) : Except BridgeError AgentId :=
  (AgentId.new s).mapError fun e => .aexInvariant (what ++ ": " ++ e.display)

/-- The pairs kept for the audit. -/
def hopPairs : List A2AHop → Except BridgeError (List (AgentId × AgentId))
  | [] => pure []
  | hop :: rest => do
    let sender ← agentId "invalid hop.from" hop.fromAgent
    let recipient ← agentId "invalid hop.to" hop.toAgent
    let pairs ← hopPairs rest
    pure ((sender, recipient) :: pairs)

def decodeAttachment (lib : Libraries) : Option String → Except BridgeError (Option Bytes)
  | none => pure none
  | some s => do
    let bytes ← (lib.standardDecode s).mapError fun e => .unsupportedA2A ("attachment b64: " ++ e)
    pure (some bytes)

def a2aTaskToAexIntent (lib : Libraries) (task : A2ATask) (keyLookup : KeyLookup) :
    Except BridgeError InboundAexIntent :=
  match task.hops with
  | [] => .error (.unsupportedA2A "A2A task has zero hops")
  | first :: rest => do
    let hops := first :: rest
    let last := hops.getLast (List.cons_ne_nil first rest)
    check (hops.length ≤ maxDelegationDepth) (.delegationTooDeep hops.length maxDelegationDepth)
    checkCycle [] hops
    verifyHops lib keyLookup 0 hops
    let originalSender ← agentId "invalid sender" first.fromAgent
    let finalRecipient ← agentId "invalid recipient" last.toAgent
    let chain ← hopPairs hops
    let attachment ← decodeAttachment lib last.attachmentB64
    pure ⟨originalSender, finalRecipient, chain, attachment⟩

/-! ## What acceptance means -/

section Acceptance

variable {lib : Libraries} {keyLookup : KeyLookup}

/-- The hop's JWS names its sender as `kid` and verifies under the key found for it. -/
def A2AHop.Signed (lib : Libraries) (keyLookup : KeyLookup) (i : ℕ) (hop : A2AHop) : Prop :=
  hop.jws ≠ "" ∧ ∃ (parts : Jws.Parts) (key : Jws.VerifierKey), parts.Of lib.toLibraries hop.jws ∧
    parts.header.kid = hop.fromAgent ∧ keyLookup i hop.fromAgent = .ok (some key) ∧
    parts.SignedBy lib.toLibraries key

theorem checkCycle_eq_ok {seen : List String} {hops : List A2AHop} :
    checkCycle seen hops = .ok () ↔
      (hops.map A2AHop.fromAgent).Nodup ∧ ∀ hop ∈ hops, hop.fromAgent ∉ seen := by
  induction hops generalizing seen with
  | nil => simp [checkCycle, pure, Except.pure]
  | cons hop rest ih =>
    rw [checkCycle, check_bind_eq_ok, ih, List.map_cons, List.nodup_cons, List.forall_mem_cons]
    constructor
    · rintro ⟨hnew, hnodup, hseen⟩
      refine ⟨⟨?_, hnodup⟩, hnew, fun h hh => ?_⟩
      · rintro hmem
        obtain ⟨h, hh, heq⟩ := List.mem_map.mp hmem
        exact hseen h hh (heq ▸ List.mem_cons_self)
      · exact fun hmem => hseen h hh (List.mem_cons_of_mem _ hmem)
    · rintro ⟨⟨hnotmem, hnodup⟩, hnew, hseen⟩
      refine ⟨hnew, hnodup, fun h hh hmem => ?_⟩
      rcases List.mem_cons.mp hmem with heq | hmem
      · exact hnotmem (heq ▸ List.mem_map_of_mem hh)
      · exact hseen h hh hmem

/-- One hop verifies exactly when it is signed. -/
theorem hop_verifies_iff {i : ℕ} {hop : A2AHop} :
    (∃ out, Jws.verify lib.toLibraries hop.jws (hopKey keyLookup i hop) = .ok out) ↔
      ∃ (parts : Jws.Parts) (key : Jws.VerifierKey), parts.Of lib.toLibraries hop.jws ∧
        parts.header.kid = hop.fromAgent ∧ keyLookup i hop.fromAgent = .ok (some key) ∧
        parts.SignedBy lib.toLibraries key := by
  constructor
  · rintro ⟨out, h⟩
    obtain ⟨parts, key, hparts, hkey, hsigned, -⟩ := Jws.verify_eq_ok.mp h
    unfold hopKey at hkey
    split_ifs at hkey with hkid
    rw [not_not] at hkid
    exact ⟨parts, key, hparts, hkid, hkid ▸ hkey, hsigned⟩
  · rintro ⟨parts, key, hparts, hkid, hkey, hsigned⟩
    refine ⟨_, Jws.verify_eq_ok.mpr ⟨parts, key, hparts, ?_, hsigned, rfl⟩⟩
    rw [hopKey, if_neg (not_not.mpr hkid), hkid, hkey]

theorem verifyHops_eq_ok {i : ℕ} {hops : List A2AHop} :
    verifyHops lib keyLookup i hops = .ok () ↔
      ∀ (j : ℕ) (hop : A2AHop), hops[j]? = some hop → hop.Signed lib keyLookup (i + j) := by
  induction hops generalizing i with
  | nil => simp [verifyHops, pure, Except.pure]
  | cons hop rest ih =>
    rw [verifyHops, check_bind_eq_ok, except_bind_eq_ok]
    constructor
    · rintro ⟨hjws, out, hout, hrest⟩ j hop' hj
      have hsigned := hop_verifies_iff.mp ⟨out, except_mapError_eq_ok.mp hout⟩
      cases j with
      | zero =>
        cases hj
        exact ⟨hjws, hsigned⟩
      | succ j =>
        rw [show i + (j + 1) = i + 1 + j by omega]
        exact ih.mp hrest j hop' hj
    · intro h
      obtain ⟨hjws, hsigned⟩ := h 0 hop rfl
      obtain ⟨out, hout⟩ := hop_verifies_iff.mpr hsigned
      refine ⟨hjws, out, except_mapError_eq_ok.mpr hout, ih.mpr fun j hop' hj => ?_⟩
      rw [show i + 1 + j = i + (j + 1) by omega]
      exact h (j + 1) hop' hj

theorem agentId_eq_ok {what s : String} {id : AgentId} :
    agentId what s = .ok id ↔ AgentId.new s = .ok id :=
  except_mapError_eq_ok

theorem hopPairs_eq_ok {hops : List A2AHop} {pairs : List (AgentId × AgentId)} :
    hopPairs hops = .ok pairs ↔
      pairs = hops.map (fun hop => (⟨hop.fromAgent⟩, ⟨hop.toAgent⟩)) ∧
        ∀ hop ∈ hops, AgentId.new hop.fromAgent = .ok ⟨hop.fromAgent⟩ ∧
          AgentId.new hop.toAgent = .ok ⟨hop.toAgent⟩ := by
  induction hops generalizing pairs with
  | nil =>
    simp only [hopPairs, pure, Except.pure, Except.ok.injEq, List.map_nil, List.not_mem_nil,
      false_implies, implies_true, and_true]
    exact eq_comm
  | cons hop rest ih =>
    rw [hopPairs, except_bind_eq_ok, List.forall_mem_cons]
    constructor
    · rintro ⟨sender, hsender, h⟩
      obtain ⟨recipient, hrecipient, h⟩ := except_bind_eq_ok.mp h
      obtain ⟨more, hmore, h⟩ := except_bind_eq_ok.mp h
      cases h
      obtain ⟨rfl, hvalid⟩ := ih.mp hmore
      rw [agentId_eq_ok] at hsender hrecipient
      obtain rfl := AgentId.eq_of_new hsender
      obtain rfl := AgentId.eq_of_new hrecipient
      exact ⟨rfl, ⟨hsender, hrecipient⟩, hvalid⟩
    · rintro ⟨rfl, ⟨hsender, hrecipient⟩, hvalid⟩
      refine ⟨_, agentId_eq_ok.mpr hsender, except_bind_eq_ok.mpr
        ⟨_, agentId_eq_ok.mpr hrecipient, except_bind_eq_ok.mpr ⟨_, ih.mpr ⟨rfl, hvalid⟩, rfl⟩⟩⟩

/-- What the bridge has checked of a task it accepts. -/
structure A2ATask.Checked (lib : Libraries) (keyLookup : KeyLookup) (task : A2ATask) : Prop where
  depth : 1 ≤ task.hops.length ∧ task.hops.length ≤ maxDelegationDepth
  senders : (task.hops.map A2AHop.fromAgent).Nodup
  signed : ∀ (i : ℕ) (hop : A2AHop), task.hops[i]? = some hop → hop.Signed lib keyLookup i
  valid : ∀ hop ∈ task.hops, AgentId.new hop.fromAgent = .ok ⟨hop.fromAgent⟩ ∧
    AgentId.new hop.toAgent = .ok ⟨hop.toAgent⟩

/-- The intent hands on the task's hops: the first sender, the last recipient, every pair and
the attachment of the last hop. -/
structure InboundAexIntent.Shows (lib : Libraries) (intent : InboundAexIntent) (task : A2ATask) :
    Prop where
  originalSender : task.hops.head?.map A2AHop.fromAgent = some intent.originalSender.asStr
  finalRecipient : task.hops.getLast?.map A2AHop.toAgent = some intent.finalRecipient.asStr
  chain : intent.chain = task.hops.map fun hop => (⟨hop.fromAgent⟩, ⟨hop.toAgent⟩)
  attachment : ∀ last, task.hops.getLast? = some last →
    decodeAttachment lib last.attachmentB64 = .ok intent.attachment

theorem a2aTaskToAexIntent_eq_ok {task : A2ATask} {intent : InboundAexIntent} :
    a2aTaskToAexIntent lib task keyLookup = .ok intent ↔
      task.Checked lib keyLookup ∧ intent.Shows lib task := by
  unfold a2aTaskToAexIntent
  split
  · rename_i hnil
    constructor
    · intro h
      cases h
    · rintro ⟨hchecked, -⟩
      have := hchecked.depth.1
      rw [hnil] at this
      exact absurd this (by decide)
  · rename_i first rest hhops
    dsimp only
    have hlast : (first :: rest).getLast? =
        some ((first :: rest).getLast (List.cons_ne_nil first rest)) :=
      List.getLast?_eq_some_getLast _
    have hmem := List.getLast_mem (List.cons_ne_nil first rest)
    generalize (first :: rest).getLast (List.cons_ne_nil first rest) = last at hlast hmem
    constructor
    · intro h
      obtain ⟨hdepth, h⟩ := check_bind_eq_ok.mp h
      obtain ⟨⟨⟩, hcycle, h⟩ := except_bind_eq_ok.mp h
      obtain ⟨⟨⟩, hverified, h⟩ := except_bind_eq_ok.mp h
      obtain ⟨sender, hsender, h⟩ := except_bind_eq_ok.mp h
      obtain ⟨recipient, hrecipient, h⟩ := except_bind_eq_ok.mp h
      obtain ⟨chain, hchain, h⟩ := except_bind_eq_ok.mp h
      obtain ⟨attachment, hattachment, h⟩ := except_bind_eq_ok.mp h
      cases h
      obtain rfl := AgentId.eq_of_new (agentId_eq_ok.mp hsender)
      obtain rfl := AgentId.eq_of_new (agentId_eq_ok.mp hrecipient)
      obtain ⟨rfl, hvalid⟩ := hopPairs_eq_ok.mp hchain
      refine ⟨⟨?_, ?_, ?_, ?_⟩, ⟨?_, ?_, ?_, ?_⟩⟩ <;> rw [hhops]
      · exact ⟨by simp, hdepth⟩
      · exact (checkCycle_eq_ok.mp hcycle).1
      · intro i hop hi
        have hsigned := verifyHops_eq_ok.mp hverified i hop hi
        rwa [Nat.zero_add] at hsigned
      · exact hvalid
      · rfl
      · rw [hlast]
        rfl
      · intro last' hlast'
        rw [hlast] at hlast'
        cases hlast'
        exact hattachment
    · rintro ⟨⟨hdepth, hsenders, hsigned, hvalid⟩, ⟨hsender, hrecipient, hchain, hattachment⟩⟩
      rw [hhops] at hdepth hsenders hsigned hvalid hsender hrecipient hchain hattachment
      rw [hlast] at hrecipient
      obtain ⟨⟨sender⟩, ⟨recipient⟩, chain, attachment⟩ := intent
      simp only [List.head?_cons, Option.map_some, Option.some.injEq] at hsender hrecipient
      subst hsender hrecipient
      refine check_bind_eq_ok.mpr ⟨hdepth.2, ?_⟩
      refine except_bind_eq_ok.mpr ⟨(), checkCycle_eq_ok.mpr ⟨hsenders, by simp⟩, ?_⟩
      refine except_bind_eq_ok.mpr ⟨(), verifyHops_eq_ok.mpr fun j hop hj => ?_, ?_⟩
      · rw [Nat.zero_add]
        exact hsigned j hop hj
      refine except_bind_eq_ok.mpr
        ⟨_, agentId_eq_ok.mpr (hvalid first List.mem_cons_self).1, ?_⟩
      refine except_bind_eq_ok.mpr ⟨_, agentId_eq_ok.mpr (hvalid last hmem).2, ?_⟩
      refine except_bind_eq_ok.mpr ⟨_, hopPairs_eq_ok.mpr ⟨hchain, hvalid⟩, ?_⟩
      exact except_bind_eq_ok.mpr ⟨_, hattachment last hlast, rfl⟩

/-- The tasks agree in everything but the JWS of their hops and their names. -/
def A2ATask.SameHops (a b : A2ATask) : Prop :=
  a.hops.map (fun hop => (hop.fromAgent, hop.toAgent, hop.attachmentB64)) =
    b.hops.map fun hop => (hop.fromAgent, hop.toAgent, hop.attachmentB64)

theorem A2ATask.SameHops.checked {task task' : A2ATask} (hsame : task'.SameHops task)
    (h : task.Checked lib keyLookup)
    (hsigned : ∀ (i : ℕ) (hop : A2AHop), task'.hops[i]? = some hop → hop.Signed lib keyLookup i) :
    task'.Checked lib keyLookup := by
  refine ⟨?_, ?_, hsigned, fun hop hmem => ?_⟩
  · have hlen := congrArg List.length hsame
    rw [List.length_map, List.length_map] at hlen
    rw [hlen]
    exact h.depth
  · have hsenders : task'.hops.map A2AHop.fromAgent = task.hops.map A2AHop.fromAgent := by
      have hfirst := congrArg (List.map Prod.fst) hsame
      rwa [List.map_map, List.map_map] at hfirst
    rw [hsenders]
    exact h.senders
  · have htriple : (hop.fromAgent, hop.toAgent, hop.attachmentB64) ∈ task.hops.map
        fun hop => (hop.fromAgent, hop.toAgent, hop.attachmentB64) := by
      rw [← hsame]
      exact List.mem_map_of_mem hmem
    obtain ⟨hop', hmem', heq⟩ := List.mem_map.mp htriple
    simp only [Prod.mk.injEq] at heq
    have hvalid := h.valid hop' hmem'
    rwa [heq.1, heq.2.1] at hvalid

theorem A2ATask.SameHops.shows {task task' : A2ATask} {intent : InboundAexIntent}
    (hsame : task'.SameHops task) (h : intent.Shows lib task) : intent.Shows lib task' := by
  refine ⟨?_, ?_, ?_, fun last hlast => ?_⟩
  · have hhead := congrArg (fun l => l.head?.map Prod.fst) hsame
    simp only [List.head?_map, Option.map_map] at hhead
    exact hhead.trans h.originalSender
  · have hlast := congrArg (fun l => l.getLast?.map fun t => t.2.1) hsame
    simp only [List.getLast?_map, Option.map_map] at hlast
    exact hlast.trans h.finalRecipient
  · have hpairs := congrArg (List.map fun t : String × String × Option String =>
      ((⟨t.1⟩, ⟨t.2.1⟩) : AgentId × AgentId)) hsame
    rw [List.map_map, List.map_map] at hpairs
    exact h.chain.trans hpairs.symm
  · have hattachments := congrArg (fun l => l.getLast?.map fun t => t.2.2) hsame
    simp only [List.getLast?_map, Option.map_map, hlast, Option.map_some] at hattachments
    obtain ⟨last', hlast', heq⟩ := Option.map_eq_some_iff.mp hattachments.symm
    rw [← h.attachment last' hlast']
    exact congrArg (decodeAttachment lib) heq.symm

/-- An accepted task has one to three hops by distinct senders, each signed by its sender, with
valid agent ids, and the intent shows exactly these hops. The signed payloads are not looked at:
any others signed by the same senders give the same intent. -/
theorem accepted_hops_signed {task : A2ATask} {intent : InboundAexIntent}
    (h : a2aTaskToAexIntent lib task keyLookup = .ok intent) :
    task.Checked lib keyLookup ∧ intent.Shows lib task ∧
      ∀ task' : A2ATask, task'.SameHops task →
        (∀ (i : ℕ) (hop : A2AHop), task'.hops[i]? = some hop → hop.Signed lib keyLookup i) →
        a2aTaskToAexIntent lib task' keyLookup = .ok intent := by
  obtain ⟨hchecked, hshows⟩ := a2aTaskToAexIntent_eq_ok.mp h
  exact ⟨hchecked, hshows, fun task' hsame hsigned =>
    a2aTaskToAexIntent_eq_ok.mpr ⟨hsame.checked hchecked hsigned, hsame.shows hshows⟩⟩

end Acceptance

namespace Sample

open Identity.Sample (vendite jws keyHex bytesOf)

def bob : AgentId := ⟨"did:web:beta.com#bob"⟩

def carol : AgentId := ⟨"did:web:gamma.com#carol"⟩

def dave : AgentId := ⟨"did:web:delta.com#dave"⟩

def bobHeaderJson : String :=
  "\x7b\"alg\":\"EdDSA\",\"kid\":\"did:web:beta.com#bob\",\"typ\":\"JOSE+JSON\"\x7d"

def bobPayload : String := "a2a-hop:from=did:web:beta.com#bob,to=did:web:delta.com#dave"

def bobHeader64 : String :=
  "eyJhbGciOiJFZERTQSIsImtpZCI6ImRpZDp3ZWI6YmV0YS5jb20jYm9iIiwi" ++
    "dHlwIjoiSk9TRStKU09OIn0"

def bobPayload64 : String :=
  "YTJhLWhvcDpmcm9tPWRpZDp3ZWI6YmV0YS5jb20jYm9iLHRvPWRpZDp3ZWI6" ++
    "ZGVsdGEuY29tI2RhdmU"

def bobSignature64 : String :=
  "1ydAT_q5iJYYVE9-GwjmKhPC6T2fnxzspz_MCjusbBiAGu14r-zmwq6tB9hX" ++
    "nBZ3Ed99mIJ9eCZ3CmoRCx2MCg"

def bobSignatureHex : String :=
  "d727404ffab9889618544f7e1b08e62a13c2e93d9f9f1ceca73fcc0a3bac6c18" ++
    "801aed78afece6c2aead07d8579c167711df7d98827d7826770a6a110b1d8c0a"

def bobKeyHex : String := "8139770ea87d175f56a35466c34c7ecccb8d8a91b4ee37a25df60f5b8fc9b394"

def bobRawHeader : Json :=
  .obj [("alg", .str "EdDSA"), ("kid", .str bob.asStr), ("typ", .str "JOSE+JSON")]

def bobHeader : Jws.JwsHeader := ⟨.edDsa, bob.asStr, some "JOSE+JSON"⟩

/-- The JWS of `bob` over his hop to `dave`. -/
def bobJws : String := bobHeader64 ++ "." ++ bobPayload64 ++ "." ++ bobSignature64

/-- The crates on the agent card of `vendite` and on the JWS of `bob`. -/
def lib : Libraries where
  base64Decode s :=
    if s = bobHeader64 then .ok (intoBytes bobHeaderJson)
    else if s = bobPayload64 then .ok (intoBytes bobPayload)
    else if s = bobSignature64 then .ok (bytesOf bobSignatureHex)
    else Identity.Sample.env.base64Decode s
  valueFromSlice bytes :=
    if bytes = intoBytes bobHeaderJson then .ok bobRawHeader
    else Identity.Sample.env.valueFromSlice bytes
  headerFromValue raw :=
    if Jws.getField "kid" raw matches some (.str "did:web:beta.com#bob") then .ok bobHeader
    else Identity.Sample.env.headerFromValue raw
  ed25519Verify key message signature :=
    (hexEncode key = bobKeyHex && message = intoBytes (bobHeader64 ++ "." ++ bobPayload64) &&
      hexEncode signature = bobSignatureHex) ||
    Identity.Sample.env.ed25519Verify key message signature
  secp256k1Signature _ := false
  secp256k1Verify _ _ _ := false
  standardDecode _ := .error "Invalid padding"

def keyLookup : KeyLookup := fun _ kid =>
  .ok (if kid = vendite.asStr then some (.ed25519 (bytesOf keyHex))
    else if kid = bob.asStr then some (.ed25519 (bytesOf bobKeyHex))
    else none)

/-- A hop whose JWS is the sender's public agent card. -/
def cardHop (recipient : AgentId) : A2AHop := ⟨vendite.asStr, recipient.asStr, jws, none⟩

def bobHop : A2AHop := ⟨bob.asStr, dave.asStr, bobJws, none⟩

/-- The segments of the card are none of Bob's. -/
theorem base64Decode_card {segment : String} (h : segment ∈
      [Identity.Sample.header64, Identity.Sample.payload64, Identity.Sample.signature64]) :
    lib.base64Decode segment = Identity.Sample.env.base64Decode segment := by
  have hother : ∀ s ∈
      [Identity.Sample.header64, Identity.Sample.payload64, Identity.Sample.signature64],
      s ≠ bobHeader64 ∧ s ≠ bobPayload64 ∧ s ≠ bobSignature64 := by decide +kernel
  obtain ⟨hheader, hpayload, hsignature⟩ := hother segment h
  simp only [lib, if_neg hheader, if_neg hpayload, if_neg hsignature]

theorem card_parts : Identity.Sample.parts.Of lib.toLibraries jws := by
  have hcard := Identity.Sample.partsOf
  constructor
  case segments => exact hcard.segments
  case size => exact hcard.size
  case headerJson =>
    exact (base64Decode_card (by simp [Identity.Sample.parts])).trans hcard.headerJson
  case payload =>
    exact (base64Decode_card (by simp [Identity.Sample.parts])).trans hcard.payload
  case signature =>
    exact (base64Decode_card (by simp [Identity.Sample.parts])).trans hcard.signature
  case raw =>
    simp only [lib]
    rw [if_neg (by decide +kernel)]
    exact hcard.raw
  case alg => exact hcard.alg
  case header => rfl
  case kid => exact hcard.kid

theorem card_signed : Identity.Sample.parts.SignedBy lib.toLibraries (.ed25519 (bytesOf keyHex)) := by
  obtain ⟨halg, haccepts⟩ := Identity.Sample.signedBy
  refine ⟨halg, ?_⟩
  simp only [Jws.VerifierKey.accepts, Bool.and_eq_true] at haccepts ⊢
  refine ⟨haccepts.1, ?_⟩
  simp only [lib, Bool.or_eq_true]
  exact .inr haccepts.2

def bobParts : Jws.Parts :=
  ⟨bobHeader64, bobPayload64, bobSignature64, intoBytes bobHeaderJson, intoBytes bobPayload,
    bytesOf bobSignatureHex, bobRawHeader, bobHeader⟩

theorem bob_parts : bobParts.Of lib.toLibraries bobJws := by
  have hheader : '.' ∉ bobHeader64.toList := by
    unfold bobHeader64
    simp
  have hpayload : '.' ∉ bobPayload64.toList := by
    unfold bobPayload64
    simp
  have hsignature : '.' ∉ bobSignature64.toList := by
    unfold bobSignature64
    simp
  have hjws : bobJws = bobHeader64 ++ String.singleton '.' ++
      (bobPayload64 ++ String.singleton '.' ++ bobSignature64) := by
    change bobHeader64 ++ String.singleton '.' ++ bobPayload64 ++ String.singleton '.' ++
      bobSignature64 = _
    simp only [String.append_assoc]
  constructor
  case segments =>
    rw [hjws, splitAt_append hheader, splitAt_append hpayload, splitAt_of_not_mem hsignature]
    rfl
  case size => decide +kernel
  case headerJson => simp only [lib, bobParts, if_true]
  case payload =>
    simp only [lib, bobParts, if_true]
    rw [if_neg (by decide +kernel)]
  case signature =>
    simp only [lib, bobParts, if_true]
    rw [if_neg (by decide +kernel), if_neg (by decide +kernel)]
  case raw => simp only [lib, bobParts, if_true]
  case alg => exact ⟨"EdDSA", rfl, rfl⟩
  case header => rfl
  case kid => decide

theorem bob_signed : bobParts.SignedBy lib.toLibraries (.ed25519 (bytesOf bobKeyHex)) :=
  ⟨rfl, by decide +kernel⟩

example : ¬bobParts.SignedBy lib.toLibraries (.ed25519 (bytesOf keyHex)) :=
  fun h => absurd h.2 (by decide +kernel)

theorem cardHop_signed (recipient : AgentId) (i : ℕ) :
    (cardHop recipient).Signed lib keyLookup i := by
  refine ⟨?_, Identity.Sample.parts, .ed25519 (bytesOf keyHex), card_parts, rfl, ?_, card_signed⟩
  · change jws ≠ ""
    intro hempty
    have hsegments := card_parts.segments
    rw [hempty] at hsegments
    exact absurd (congrArg List.length hsegments) (by decide)
  · change Except.ok (if vendite.asStr = vendite.asStr then _ else _) = _
    rw [if_pos rfl]

theorem bobHop_signed (i : ℕ) : bobHop.Signed lib keyLookup i := by
  refine ⟨?_, bobParts, .ed25519 (bytesOf bobKeyHex), bob_parts, rfl, ?_, bob_signed⟩
  · change bobJws ≠ ""
    intro hempty
    have hsegments := bob_parts.segments
    rw [hempty] at hsegments
    exact absurd (congrArg List.length hsegments) (by decide)
  · change Except.ok (if bob.asStr = vendite.asStr then _ else if bob.asStr = bob.asStr then _
      else _) = _
    rw [if_neg (by decide), if_pos rfl]

theorem cardTask_accepted {recipient : AgentId}
    (hvalid : AgentId.new recipient.asStr = .ok recipient) :
    a2aTaskToAexIntent lib ⟨"t1", none, [cardHop recipient]⟩ keyLookup =
      .ok ⟨vendite, recipient, [(vendite, recipient)], none⟩ := by
  have hsender : AgentId.new vendite.asStr = .ok vendite := by decide +kernel
  refine a2aTaskToAexIntent_eq_ok.mpr ⟨⟨?_, List.nodup_singleton _, ?_, ?_⟩, ?_⟩
  · change 1 ≤ 1 ∧ 1 ≤ 3
    decide
  · intro i hop hi
    cases i with
    | zero =>
      cases hi
      exact cardHop_signed recipient 0
    | succ i => simp at hi
  · intro hop hmem
    rw [List.mem_singleton.mp hmem]
    exact ⟨hsender, hvalid⟩
  · exact ⟨rfl, rfl, rfl, fun last hlast => by cases hlast; rfl⟩

/-- Two hops that do not meet: one leads to `carol`, the other starts from `bob`. -/
theorem unlinkedTask_accepted :
    a2aTaskToAexIntent lib ⟨"t2", none, [cardHop carol, bobHop]⟩ keyLookup =
      .ok ⟨vendite, dave, [(vendite, carol), (bob, dave)], none⟩ := by
  refine a2aTaskToAexIntent_eq_ok.mpr ⟨⟨?_, ?_, ?_, ?_⟩, ?_⟩
  · change 1 ≤ 2 ∧ 2 ≤ 3
    decide
  · change [vendite.asStr, bob.asStr].Nodup
    decide
  · intro i hop hi
    match i with
    | 0 =>
      cases hi
      exact cardHop_signed carol 0
    | 1 =>
      cases hi
      exact bobHop_signed 1
    | i + 2 => simp at hi
  · intro hop hmem
    rcases List.mem_cons.mp hmem with rfl | hmem
    · exact ⟨by decide +kernel, by decide +kernel⟩
    · rw [List.mem_singleton.mp hmem]
      exact ⟨by decide +kernel, by decide +kernel⟩
  · exact ⟨rfl, rfl, rfl, fun last hlast => by cases hlast; rfl⟩

/-- A sender's agent card, signed for no hop at all, passes for a hop to one agent, with the
recipient changed for a hop to another, and for a hop back to the sender; and hops that do not
meet pass as a chain. -/
theorem hops_unbound :
    a2aTaskToAexIntent lib ⟨"t1", none, [cardHop bob]⟩ keyLookup =
        .ok ⟨vendite, bob, [(vendite, bob)], none⟩ ∧
      a2aTaskToAexIntent lib ⟨"t1", none, [cardHop carol]⟩ keyLookup =
        .ok ⟨vendite, carol, [(vendite, carol)], none⟩ ∧
      a2aTaskToAexIntent lib ⟨"t1", none, [cardHop vendite]⟩ keyLookup =
        .ok ⟨vendite, vendite, [(vendite, vendite)], none⟩ ∧
      a2aTaskToAexIntent lib ⟨"t2", none, [cardHop carol, bobHop]⟩ keyLookup =
        .ok ⟨vendite, dave, [(vendite, carol), (bob, dave)], none⟩ :=
  ⟨cardTask_accepted (by decide +kernel), cardTask_accepted (by decide +kernel),
    cardTask_accepted (by decide +kernel), unlinkedTask_accepted⟩

theorem accepted_hops_signed_unlinked :
    (A2ATask.mk "t2" none [cardHop carol, bobHop]).Checked lib keyLookup :=
  (accepted_hops_signed unlinkedTask_accepted).1

end Sample

end AgentExchange.Bridge
