import AgentExchange.Identity.DidWeb
import AgentExchange.Core.Wire

/-!
# Whose card was accepted

The provider accepts any card that is signed by the key it declares and whose
`kid` is its own `agent_id`. Nothing ties the card to the peer it was fetched
for, and no clock is read: both come only with what the peer's server returns.
-/
namespace AgentExchange.Identity

open Library Wire
open Program (lift ensure)

/-- The body is a JWS that holds the card, signed by the key the card declares. -/
structure SelfSigned (env : Env) (body : Bytes) (parts : Jws.Parts) (key : Bytes)
    (card : AgentCardPayload) : Prop where
  text : ∃ jws, fromUtf8 body = .ok jws ∧ parts.Of env.toLibraries (trim jws)
  parsed : env.cardFromSlice parts.payload = .ok card
  kid : card.agentId = parts.header.kid
  declared : decodeDidKeyMultibase env card.publicKey.publicKeyMultibase = .ok key
  signed : parts.SignedBy env.toLibraries (.ed25519 key)

theorem cardKey_eq_ok {env : Env} {jws kid : String} {parts : Jws.Parts}
    (hparts : parts.Of env.toLibraries (trim jws)) {found : Option Jws.VerifierKey} :
    cardKey env jws kid = .ok found ↔ ∃ card key, env.cardFromSlice parts.payload = .ok card ∧
      card.agentId = kid ∧
      decodeDidKeyMultibase env card.publicKey.publicKeyMultibase = .ok key ∧
      found = some (.ed25519 key) := by
  have hsecond : orError (splitAt '.' (trim jws))[1]? Jws.JwsError.invalidStructure =
      .ok parts.payload64 := by
    rw [hparts.segments]
    rfl
  constructor
  · intro h
    obtain ⟨payload64, hpayload64, h⟩ := except_bind_eq_ok.mp h
    rw [hsecond] at hpayload64
    cases hpayload64
    obtain ⟨payloadBytes, hpayload, h⟩ := except_bind_eq_ok.mp h
    obtain ⟨card, hcard, h⟩ := except_bind_eq_ok.mp h
    obtain ⟨hkid, h⟩ := check_bind_eq_ok.mp h
    obtain ⟨key, hkey, h⟩ := except_bind_eq_ok.mp h
    cases h
    rw [except_mapError_eq_ok, hparts.payload] at hpayload
    cases hpayload
    exact ⟨card, key, except_mapError_eq_ok.mp hcard, hkid, except_mapError_eq_ok.mp hkey, rfl⟩
  · rintro ⟨card, key, hcard, hkid, hkey, rfl⟩
    refine except_bind_eq_ok.mpr ⟨_, hsecond, ?_⟩
    refine except_bind_eq_ok.mpr ⟨_, except_mapError_eq_ok.mpr hparts.payload, ?_⟩
    refine except_bind_eq_ok.mpr ⟨_, except_mapError_eq_ok.mpr hcard, ?_⟩
    refine check_bind_eq_ok.mpr ⟨hkid, ?_⟩
    exact except_bind_eq_ok.mpr ⟨_, except_mapError_eq_ok.mpr hkey, rfl⟩

/-- The provider accepts just the self-signed cards. -/
theorem verifyCard_eq_ok {env : Env} {body key : Bytes} {card : AgentCardPayload} :
    verifyCard env body = .ok (key, card) ↔ ∃ parts, SelfSigned env body parts key card := by
  constructor
  · intro h
    obtain ⟨jws, hjws, h⟩ := except_bind_eq_ok.mp h
    obtain ⟨verified, hverified, h⟩ := except_bind_eq_ok.mp h
    obtain ⟨-, h⟩ := check_bind_eq_ok.mp h
    obtain ⟨card', hcard, h⟩ := except_bind_eq_ok.mp h
    obtain ⟨key', hkey, h⟩ := except_bind_eq_ok.mp h
    cases h
    obtain ⟨parts, found, hparts, hfound, hsigned, rfl⟩ :=
      Jws.verify_eq_ok.mp (except_mapError_eq_ok.mp hverified)
    obtain ⟨card', key', hcard', hkid, hkey', hsome⟩ := (cardKey_eq_ok hparts).mp hfound
    rw [except_mapError_eq_ok, hcard'] at hcard
    cases hcard
    rw [hkey'] at hkey
    cases hkey
    cases hsome
    exact ⟨parts, ⟨jws, except_mapError_eq_ok.mp hjws, hparts⟩, hcard', hkid, hkey', hsigned⟩
  · rintro ⟨parts, ⟨jws, hjws, hparts⟩, hcard, hkid, hkey, hsigned⟩
    refine except_bind_eq_ok.mpr ⟨_, except_mapError_eq_ok.mpr hjws, ?_⟩
    refine except_bind_eq_ok.mpr ⟨⟨parts.header, parts.payload⟩, except_mapError_eq_ok.mpr
      (Jws.verify_eq_ok.mpr ⟨parts, .ed25519 key, hparts, ?_, hsigned, rfl⟩), ?_⟩
    · exact (cardKey_eq_ok hparts).mpr ⟨card, key, hcard, hkid, hkey, rfl⟩
    · refine check_bind_eq_ok.mpr ⟨hsigned.1.symm, ?_⟩
      refine except_bind_eq_ok.mpr ⟨_, except_mapError_eq_ok.mpr hcard, ?_⟩
      exact except_bind_eq_ok.mpr ⟨_, hkey, rfl⟩

/-! ## One fetch -/

/-- `fetch_and_verify_card` returns the key and the card when the network answers so. -/
def Fetches (env : Env) (peerId : AgentId) (response : Except String Bytes) (key : Bytes)
    (card : AgentCardPayload) : Prop :=
  ∃ url, (fetchAndVerifyCard env peerId).Runs
    [⟨.safeGet url env.provider.componentName, response⟩] (pure (key, card))

/-- The clock is inside the card's window, up to the clock skew. -/
def AgentCardPayload.Current (card : AgentCardPayload) (now : ℤ) : Prop :=
  card.iat.toInt - maxClockSkewSecsV2 ≤ now ∧ now ≤ card.exp.toInt + maxClockSkewSecsV2

/-- The card is the peer's own, and current. -/
structure Bound (env : Env) (peerId : AgentId) (body : Bytes) (now : ℤ) (parts : Jws.Parts)
    (key : Bytes) (card : AgentCardPayload) : Prop where
  selfSigned : SelfSigned env body parts key card
  agentId : card.agentId = peerId.asStr
  kid : parts.header.kid = peerId.asStr
  current : card.Current now

/-- Whatever the fetch returns is bound to the peer. -/
def FetchBound (env : Env) (peerId : AgentId) (response : Except String Bytes) (now : ℤ) : Prop :=
  ∀ key card, Fetches env peerId response key card →
    ∃ body parts, response = .ok body ∧ Bound env peerId body now parts key card

/-- If the peer's server returns a self-signed card, it names the peer and is current. -/
def ServesOwn (env : Env) (peerId : AgentId) (response : Except String Bytes) (now : ℤ) : Prop :=
  ∀ url body parts key card, wellKnownUrl peerId = .ok url → response = .ok body →
    SelfSigned env body parts key card → card.agentId = peerId.asStr ∧ card.Current now

theorem fetches_iff {env : Env} {peerId : AgentId} {response : Except String Bytes} {key : Bytes}
    {card : AgentCardPayload} :
    Fetches env peerId response key card ↔ ∃ url body parts, wellKnownUrl peerId = .ok url ∧
      response = .ok body ∧ SelfSigned env body parts key card := by
  unfold Fetches fetchAndVerifyCard
  cases hurl : wellKnownUrl peerId with
  | error e =>
    constructor
    · rintro ⟨url, h⟩
      obtain ⟨k, hk, -⟩ := Program.runs_singleton.mp h
      cases hk
    · rintro ⟨url, body, parts, h, -⟩
      cases h
  | ok url =>
    cases response with
    | error e =>
      constructor
      · rintro ⟨url', h⟩
        obtain ⟨k, hk, hout⟩ := Program.runs_singleton.mp h
        cases hk
        cases hout
      · rintro ⟨_, _, _, _, h, -⟩
        cases h
    | ok body =>
      constructor
      · rintro ⟨url', h⟩
        obtain ⟨k, hk, hout⟩ := Program.runs_singleton.mp h
        cases hk
        have hcard : verifyCard env body = .ok (key, card) := by
          change _ = lift (verifyCard env body) at hout
          cases hverify : verifyCard env body with
          | error e =>
            rw [hverify] at hout
            cases hout
          | ok out =>
            rw [hverify] at hout
            cases hout
            rfl
        obtain ⟨parts, hparts⟩ := verifyCard_eq_ok.mp hcard
        exact ⟨url, body, parts, rfl, rfl, hparts⟩
      · rintro ⟨_, body', parts, -, hbody, hparts⟩
        cases hbody
        refine ⟨url, Program.runs_singleton.mpr ⟨_, rfl, ?_⟩⟩
        change _ = lift (verifyCard env body)
        rw [verifyCard_eq_ok.mpr ⟨parts, hparts⟩]
        rfl

/-- A fetch is bound to the peer just when the peer's server returns its own current card. -/
theorem fetchBound_iff {env : Env} {peerId : AgentId} {response : Except String Bytes} {now : ℤ} :
    FetchBound env peerId response now ↔ ServesOwn env peerId response now := by
  constructor
  · intro h url body parts key card hurl hbody hparts
    obtain ⟨_, _, -, hbound⟩ := h key card (fetches_iff.mpr ⟨url, body, parts, hurl, hbody, hparts⟩)
    exact ⟨hbound.agentId, hbound.current⟩
  · intro h key card hfetch
    obtain ⟨url, body, parts, hurl, hbody, hparts⟩ := fetches_iff.mp hfetch
    obtain ⟨hid, hcurrent⟩ := h url body parts key card hurl hbody hparts
    exact ⟨body, parts, hbody, hparts, hid, hparts.kid.symm.trans hid, hcurrent⟩

/-! ## Runs of the provider -/

abbrev History := List (Library.Event effects)
abbrev Trace := List (Entry effects State Request)

/-- The task fetched a self-signed card that declares the key. -/
def Fetched (env : Env) (past : History) (peerId : AgentId) (key : Bytes) : Prop :=
  ∃ url body parts card, wellKnownUrl peerId = .ok url ∧
    (⟨.safeGet url env.provider.componentName, .ok body⟩ : Library.Event effects) ∈ past ∧
    SelfSigned env body parts key card

/-- The key the task found or fetched for the peer. -/
def Obtained (env : Env) (past : History) (peerId : AgentId) (key : Bytes) : Prop :=
  (⟨.cachedPeer peerId, some key⟩ : Library.Event effects) ∈ past ∨ Fetched env past peerId key

/-- Which request writes to the cache, and what it has seen by then. -/
def permits (env : Env) (r : Request) (past : History) : Op → Prop
  | .insertPeer peerId key => r = .registerPeer peerId key ∨
      (∃ message signature, r = .verifyPeer peerId message signature) ∧ Fetched env past peerId key
  | _ => True

/-- What a verified peer stands for. -/
def ensures (env : Env) (r : Request) (past : History) : Except Error Unit → Prop
  | .ok _ => ∀ peerId message signature, r = .verifyPeer peerId message signature →
      ∃ key, Obtained env past peerId key ∧
        env.ed25519Verify key message signature.bytes = true
  | .error _ => True

theorem fetchAndVerifyCard_spec {α : Type} {env : Env} {peerId : AgentId}
    {f : Bytes × AgentCardPayload → Prog α} {pre : History → Op → Prop}
    {post : History → Except Error α → Prop} {past : History}
    (hget : ∀ past url component, pre past (.safeGet url component))
    (herr : ∀ past e, post past (.error e))
    (hok : ∀ past' key card, past ⊆ past' → Fetched env past' peerId key →
      (f (key, card)).Spec pre post past') :
    (fetchAndVerifyCard env peerId >>= f).Spec pre post past := by
  rw [Program.spec_bind]
  unfold fetchAndVerifyCard
  rw [Program.spec_lift_bind]
  refine ⟨fun url hurl => ?_, fun e _ => herr _ _⟩
  rw [Program.spec_call_bind]
  refine ⟨hget _ _ _, fun response => ?_⟩
  rw [Program.spec_lift_bind]
  refine ⟨fun body hbody => ?_, fun e _ => herr _ _⟩
  rw [Program.spec_lift]
  cases hverify : verifyCard env body with
  | error e => exact herr _ _
  | ok out =>
    obtain ⟨key, card⟩ := out
    obtain ⟨parts, hparts⟩ := verifyCard_eq_ok.mp hverify
    rw [except_mapError_eq_ok.mp hbody]
    refine hok _ key card (List.subset_append_left _ _) ?_
    exact ⟨url, body, parts, card, hurl, by simp, hparts⟩

theorem handler_spec (env : Env) (r : Request) :
    (handler env r).Spec (permits env r) (ensures env r) [] := by
  cases r with
  | registerPeer peerId key => exact ⟨Or.inl rfl, fun _ _ _ _ h => by cases h⟩
  | verifyPeer peerId message signature =>
    change (verifyPeer env peerId message signature).Spec _ _ []
    unfold verifyPeer
    rw [Program.spec_ensure_bind]
    refine ⟨fun _ => ?_, fun _ => trivial⟩
    -- with the key at hand, the signature decides
    have hfinish (past : History) (key : Bytes) (hkey : Obtained env past peerId key) :
        (do
          ensure (signature.bytes.length = 64)
            (.signatureFormat ("Ed25519 signature must be 64 bytes, got " ++
              toString signature.bytes.length))
          ensure (env.ed25519Verify key message signature.bytes = true) .signatureInvalid :
            Prog Unit).Spec (permits env (.verifyPeer peerId message signature))
          (ensures env (.verifyPeer peerId message signature)) past := by
      rw [Program.spec_ensure_bind]
      refine ⟨fun _ => ?_, fun _ => trivial⟩
      rw [Program.spec_ensure]
      refine ⟨fun hverify peerId' message' signature' h => ?_, fun _ => trivial⟩
      cases h
      exact ⟨key, hkey, hverify⟩
    rw [Program.spec_bind]
    unfold peerKey
    rw [Program.spec_call_bind]
    refine ⟨trivial, fun cached => ?_⟩
    cases cached with
    | some key => exact hfinish _ key (Or.inl (by simp))
    | none =>
      refine fetchAndVerifyCard_spec (fun _ _ _ => trivial) (fun _ _ => trivial) ?_
      intro past key card _ hfetched
      refine ⟨Or.inr ⟨⟨message, signature, rfl⟩, hfetched⟩, fun _ => ?_⟩
      refine hfinish _ key (Or.inr ?_)
      obtain ⟨url, body, parts, card, hurl, hmem, hparts⟩ := hfetched
      exact ⟨url, body, parts, card, hurl, List.mem_append_left _ hmem, hparts⟩

/-- The key was registered for the peer, or fetched with a card bound to the peer. -/
def KeyBound (env : Env) (w : World) (peerId : AgentId) (key : Bytes) : Prop :=
  (∃ e ∈ w.trace, e.request = .registerPeer peerId key) ∨
    ∃ e ∈ w.trace, ∃ message signature url body parts card,
      e.request = .verifyPeer peerId message signature ∧ wellKnownUrl peerId = .ok url ∧
      e.event = ⟨.safeGet url env.provider.componentName, .ok body⟩ ∧
      Bound env peerId body e.before.now parts key card

/-- Every key in the cache is bound to its peer, and so is every key that verified a message. -/
def IdentitiesBound (env : Env) (w : World) : Prop :=
  (∀ peerId key, w.shared.peers peerId = some key → KeyBound env w peerId key) ∧
    ∀ (i : ℕ) (t : Task effects Request Error Unit) (peerId : AgentId) (message : Bytes)
      (signature : Signature), w.tasks[i]? = some t →
      t.request = .verifyPeer peerId message signature → w.outcome i = some (.ok ()) →
      ∃ key, KeyBound env w peerId key ∧ env.ed25519Verify key message signature.bytes = true

/-- If the step fetches a card for a peer, the peer's server returns its own current card. -/
def FetchesOwn (env : Env) (w : World) : Label → Prop
  | .step i response => ∀ peerId message signature url component k,
      w.tasks[i]? = some ⟨.verifyPeer peerId message signature,
        some (.perform (.safeGet url component) k)⟩ →
      ServesOwn env peerId response w.shared.now
  | _ => True

section Runs

variable {env : Env} {labels : List Label}

theorem servesOwn_of_fetchesOwn (h : Pool.Along (semantics env) {} (FetchesOwn env) labels)
    {e : Entry effects State Request} (he : e ∈ (run env labels).trace) {peerId : AgentId}
    {message : Bytes} {signature : Signature} {url component : String}
    {response : Except String Bytes} (hreq : e.request = .verifyPeer peerId message signature)
    (hevent : e.event = ⟨.safeGet url component, response⟩) :
    ServesOwn env peerId response e.before.now := by
  obtain ⟨past, rest, htrace⟩ := List.append_of_mem he
  refine Pool.Along.performed (semantics env)
    (K := fun _ e => ∀ peerId message signature url component response,
      e.request = .verifyPeer peerId message signature →
      e.event = ⟨.safeGet url component, response⟩ → ServesOwn env peerId response e.before.now)
    h ?_ htrace peerId message signature url component response hreq hevent
  rintro w i c r op k hi hC peerId message signature url component response rfl hevent
  cases hevent
  exact hC peerId message signature url component k hi

/-- What was fetched for a peer is bound to it. -/
theorem keyBound_of_fetched (h : Pool.Along (semantics env) {} (FetchesOwn env) labels)
    {past : Trace} {i : ℕ} {peerId : AgentId} {key message : Bytes} {signature : Signature}
    (hpast : past ⊆ (run env labels).trace)
    (hreq : ∀ e ∈ (run env labels).trace, e.task = i →
      e.request = .verifyPeer peerId message signature)
    (hfetched : Fetched env (Pool.eventsOf past i) peerId key) :
    KeyBound env (run env labels) peerId key := by
  obtain ⟨url, body, parts, card, hurl, hmem, hparts⟩ := hfetched
  obtain ⟨e, he, htask, hevent⟩ := Pool.mem_eventsOf.mp hmem
  have hrequest := hreq e (hpast he) htask
  obtain ⟨hid, hcurrent⟩ := servesOwn_of_fetchesOwn h (hpast he) hrequest hevent url body parts key
    card hurl rfl hparts
  exact Or.inr ⟨e, hpast he, message, signature, url, body, parts, card, hrequest, hurl, hevent,
    hparts, hid, hparts.kid.symm.trans hid, hcurrent⟩

/-- Every cached key was inserted. -/
theorem exists_insertPeer (env : Env) (labels : List Label) :
    ∀ peerId key, (run env labels).shared.peers peerId = some key →
      ∃ e ∈ (run env labels).trace, e.event.op = .insertPeer peerId key := by
  refine Pool.run_trace_induction (C := fun _ _ => True)
    (J := fun (trace : Trace) (s : State) => ∀ peerId key, s.peers peerId = some key →
      ∃ e ∈ trace, e.event.op = .insertPeer peerId key) (handler_spec env) ?_ ?_
    (fun _ _ _ h => h) labels (Pool.along_true _ _ _)
  · intro peerId key h
    cases h
  · intro w i response r op k hi _ _ hJ peerId key hkey
    rw [exists_mem_snoc]
    cases op with
    | insertPeer peerId' key' =>
      change Function.update w.shared.peers peerId' (some key') peerId = some key at hkey
      by_cases hid : peerId = peerId'
      · subst hid
        rw [Function.update_self] at hkey
        cases hkey
        exact Or.inr rfl
      · rw [Function.update_of_ne hid] at hkey
        exact Or.inl (hJ peerId key hkey)
    | _ => exact Or.inl (hJ peerId key hkey)

theorem keyBound_of_inserted (h : Pool.Along (semantics env) {} (FetchesOwn env) labels)
    {e : Entry effects State Request} (he : e ∈ (run env labels).trace) {peerId : AgentId}
    {key : Bytes} (hop : e.event.op = .insertPeer peerId key) :
    KeyBound env (run env labels) peerId key := by
  have hconforms := Pool.run_conforms (semantics env) {} labels
  obtain ⟨past, rest, htrace⟩ := List.append_of_mem he
  have hpermits := hconforms.operation_spec (handler_spec env) htrace
  rw [hop] at hpermits
  rcases hpermits with hreq | ⟨⟨message, signature, hreq⟩, hfetched⟩
  · exact Or.inl ⟨e, he, hreq⟩
  · have hrequest : ∀ x ∈ (run env labels).trace, x.task = e.task →
        x.request = .verifyPeer peerId message signature := fun x hx htask =>
      (hconforms.request_eq _ hx he htask).trans hreq
    exact keyBound_of_fetched h (by simp [htrace]) hrequest hfetched

/-- A key found in the cache was cached before. -/
theorem keyBound_of_cached (h : Pool.Along (semantics env) {} (FetchesOwn env) labels)
    {e : Entry effects State Request} (he : e ∈ (run env labels).trace) {peerId : AgentId}
    {key : Bytes} (hevent : e.event = ⟨.cachedPeer peerId, some key⟩) :
    KeyBound env (run env labels) peerId key := by
  obtain ⟨past, rest, htrace⟩ := List.append_of_mem he
  obtain ⟨done, more, rfl, hdone, hbefore⟩ := Pool.run_entry (semantics env) htrace
  obtain ⟨c, hanswer⟩ := (Pool.run_conforms (semantics env) {} _).answered e he
  obtain ⟨task, request, before, event⟩ := e
  dsimp only at hevent hanswer hbefore
  subst hevent hbefore
  obtain ⟨x, hx, hop⟩ := exists_insertPeer env done peerId key hanswer.symm
  exact keyBound_of_inserted h ((Pool.run_trace_grows (semantics env) {} done more).subset hx) hop

end Runs

/-! ## A card at the wrong door

A card with its Ed25519 signature, and the results of the libraries on just its bytes. -/
namespace Sample

def vendite : AgentId := ⟨"did:web:acme.com#agent-vendite"⟩

/-- Another agent, under another domain. -/
def stranger : AgentId := ⟨"did:web:example.com"⟩

def headerJson : String :=
  "\x7b\"alg\":\"EdDSA\",\"kid\":\"did:web:acme.com#agent-vendite\",\"typ\":\"JOSE+JSON\"\x7d"

def payloadJson : String :=
  "\x7b\"iss\":\"did:web:acme.com\",\"sub\":\"did:web:acme.com#agent-vendite\",\"iat\":1716100" ++
    "000,\"exp\":1716186400,\"agent_id\":\"did:web:acme.com#agent-vendite\",\"public_key\":" ++
    "\x7b\"type\":\"Ed25519VerificationKey2020\",\"publicKeyMultibase\":\"z6MkvRXNYcE7MMduynW" ++
    "TgeKbDaT1iijDSC8pZqXZc8rHPrf2\"\x7d\x7d"

def header64 : String :=
  "eyJhbGciOiJFZERTQSIsImtpZCI6ImRpZDp3ZWI6YWNtZS5jb20jYWdlbnQtdmVuZGl0ZSIsInR5cC" ++
    "I6IkpPU0UrSlNPTiJ9"

def payload64 : String :=
  "eyJpc3MiOiJkaWQ6d2ViOmFjbWUuY29tIiwic3ViIjoiZGlkOndlYjphY21lLmNvbSNhZ2VudC12ZW" ++
    "5kaXRlIiwiaWF0IjoxNzE2MTAwMDAwLCJleHAiOjE3MTYxODY0MDAsImFnZW50X2lkIjoiZGlkOndl" ++
    "YjphY21lLmNvbSNhZ2VudC12ZW5kaXRlIiwicHVibGljX2tleSI6eyJ0eXBlIjoiRWQyNTUxOVZlcm" ++
    "lmaWNhdGlvbktleTIwMjAiLCJwdWJsaWNLZXlNdWx0aWJhc2UiOiJ6Nk1rdlJYTlljRTdNTWR1eW5X" ++
    "VGdlS2JEYVQxaWlqRFNDOHBacVhaYzhySFByZjIifX0"

def signature64 : String :=
  "s4bK5XbO1AsFq-q0C0eQT3dn14BQpTtEGhTdXUk-Bsfa_yZg3JXGpOqNkppd63Djj7_Z5phoof9dUy" ++
    "vnJPsXBQ"

def signatureHex : String :=
  "b386cae576ced40b05abeab40b47904f7767d78050a53b441a14dd5d493e06c7" ++
    "daff2660dc95c6a4ea8d929a5deb70e38fbfd9e69868a1ff5d532be724fb1705"

def keyHex : String := "ed4928c628d1c2c6eae90338905995612959273a5c63f93636c14614ac8737d1"

/-- The signature of `vendite` over the bytes of "hi". -/
def greetingHex : String :=
  "fd9ff6ac3e4f7fa7c551cee7f3ce08fdba4cda374456ea25982c267581846fd9" ++
    "2b12d4e92e5eeaf111d856ea5d7435a01a6f62ff60dc63079cb4a853df72ba04"

def bytesOf (hex : String) : Bytes := (hexDecode hex).toOption.getD []

theorem length_key : (bytesOf keyHex).length = 32 := by decide +kernel

def jws : String := header64 ++ "." ++ payload64 ++ "." ++ signature64

def header : Jws.JwsHeader := ⟨.edDsa, vendite.asStr, some "JOSE+JSON"⟩

def card : AgentCardPayload where
  iss := "did:web:acme.com"
  sub := vendite.asStr
  iat := 1716100000
  exp := 1716186400
  agentId := vendite.asStr
  publicKey := ⟨"Ed25519VerificationKey2020",
    "z6MkvRXNYcE7MMduynWTgeKbDaT1iijDSC8pZqXZc8rHPrf2"⟩

def rawHeader : Json :=
  .obj [("alg", .str "EdDSA"), ("kid", .str vendite.asStr), ("typ", .str "JOSE+JSON")]

def env : Env where
  base64Decode s :=
    if s = header64 then .ok (intoBytes headerJson)
    else if s = payload64 then .ok (intoBytes payloadJson)
    else if s = signature64 then .ok (bytesOf signatureHex)
    else .error "Invalid padding"
  valueFromSlice bytes :=
    if bytes = intoBytes headerJson then .ok rawHeader
    else .error "expected value at line 1 column 1"
  headerFromValue _ := .ok header
  ed25519Verify key message signature := hexEncode key = keyHex &&
    ((message = intoBytes (header64 ++ "." ++ payload64) && hexEncode signature = signatureHex) ||
      (message = intoBytes "hi" && hexEncode signature = greetingHex))
  secp256k1Signature _ := false
  secp256k1Verify _ _ _ := false
  cardFromSlice bytes :=
    if bytes = intoBytes payloadJson then .ok card
    else .error "expected value at line 1 column 1"
  bs58Decode s :=
    if "z" ++ s = card.publicKey.publicKeyMultibase then
      .ok (ed25519MulticodecPrefix ++ bytesOf keyHex)
    else .error "buffer provided to decode base58 encoded string into was too small"
  verifyingKey _ := .ok ()
  provider := ⟨⟨"did:web:acme.com#fatture"⟩, "test"⟩

def parts : Jws.Parts :=
  ⟨header64, payload64, signature64, intoBytes headerJson, intoBytes payloadJson,
    bytesOf signatureHex, rawHeader, header⟩

/-- One call of `verify_peer` for the given peer, answered with the card. -/
def meet (peerId : AgentId) : List Label :=
  .environment 1716100000 ::
    .spawn (.verifyPeer peerId (intoBytes "hi") ⟨.ed25519, bytesOf greetingHex⟩) ::
    List.replicate 3 (.step 0 (.ok (intoBytes jws)))

end Sample


/-- A character that may stand in a segment. -/
def Sample.plainChar (c : Char) : Bool := c != '.' && !isWhitespace c

theorem Sample.segment_bytes : ∀ segment ∈ [header64, payload64, signature64],
    ∀ b ∈ intoBytes segment, b.toNat < 127 ∧ 32 < b.toNat ∧ b.toNat ≠ 46 := by
  have hall : ∀ segment ∈ [header64, payload64, signature64],
      (intoBytes segment).all (fun b => b.toNat < 127 && 32 < b.toNat && b.toNat ≠ 46) = true := by
    decide +kernel
  intro segment hsegment b hb
  have hbyte := List.all_eq_true.mp (hall segment hsegment) b hb
  simpa [and_assoc] using hbyte

theorem Sample.toList_segment {segment : String}
    (h : segment ∈ [header64, payload64, signature64]) :
    segment.toList = (intoBytes segment).map fun b => Char.ofNat b.toNat :=
  toList_of_ascii fun b hb => (segment_bytes segment h b hb).1.trans (by decide)

theorem Sample.plain : ∀ segment ∈ [header64, payload64, signature64],
    segment.toList.all plainChar = true := by
  have hplain : ∀ n < 127, 32 < n → n ≠ 46 → plainChar (Char.ofNat n) = true := by decide +kernel
  intro segment hsegment
  rw [toList_segment hsegment, List.all_map, List.all_eq_true]
  intro b hb
  obtain ⟨hlt, hgt, hdot⟩ := segment_bytes segment hsegment b hb
  exact hplain _ hlt hgt hdot

theorem Sample.plain_chars {segment : String} (h : segment ∈ [header64, payload64, signature64])
    {c : Char} (hc : c ∈ segment.toList) : c ≠ '.' ∧ isWhitespace c = false := by
  have hall := List.all_eq_true.mp (plain segment h) c hc
  simpa [plainChar] using hall

theorem Sample.header_plain {c : Char} (hc : c ∈ header64.toList) :
    c ≠ '.' ∧ isWhitespace c = false := plain_chars (by simp) hc

theorem Sample.payload_plain {c : Char} (hc : c ∈ payload64.toList) :
    c ≠ '.' ∧ isWhitespace c = false := plain_chars (by simp) hc

theorem Sample.signature_plain {c : Char} (hc : c ∈ signature64.toList) :
    c ≠ '.' ∧ isWhitespace c = false := plain_chars (by simp) hc

theorem Sample.jws_eq : jws = header64 ++ String.singleton '.' ++
    (payload64 ++ String.singleton '.' ++ signature64) := by
  change header64 ++ String.singleton '.' ++ payload64 ++ String.singleton '.' ++ signature64 = _
  simp only [String.append_assoc]

theorem Sample.trim_jws : trim jws = jws := by
  refine trim_eq_self ?_
  rw [jws_eq]
  intro c hc
  simp only [String.toList_append, String.toList_singleton, List.mem_append,
    List.mem_singleton] at hc
  rcases hc with (hc | rfl) | (hc | rfl) | hc
  · exact (header_plain hc).2
  · rfl
  · exact (payload_plain hc).2
  · rfl
  · exact (signature_plain hc).2

theorem Sample.partsOf : parts.Of env.toLibraries jws where
  segments := by
    rw [jws_eq, splitAt_append fun h => (header_plain h).1 rfl,
      splitAt_append fun h => (payload_plain h).1 rfl,
      splitAt_of_not_mem fun h => (signature_plain h).1 rfl]
    rfl
  size := by decide +kernel
  headerJson := by decide +kernel
  payload := by decide +kernel
  signature := by decide +kernel
  raw := by simp only [env, parts, if_true]
  alg := ⟨"EdDSA", rfl, rfl⟩
  header := rfl
  kid := by decide +kernel

theorem Sample.signedBy : parts.SignedBy env.toLibraries (.ed25519 (bytesOf keyHex)) :=
  ⟨rfl, by decide +kernel⟩

example : ¬Sample.parts.SignedBy Sample.env.toLibraries (.ed25519 []) :=
  fun h => absurd h.2 (by decide +kernel)

theorem Sample.selfSigned : SelfSigned env (intoBytes jws) parts (bytesOf keyHex) card where
  text := ⟨jws, fromUtf8_intoBytes jws, trim_jws.symm ▸ partsOf⟩
  parsed := by simp only [env, parts, if_true]
  kid := rfl
  declared := by decide +kernel
  signed := signedBy

/-- Inside its window the card may be served for its own agent. -/
theorem Sample.servesOwn : ServesOwn env vendite (.ok (intoBytes jws)) 1716100000 := by
  rintro url body parts' key card' - hbody hparts
  cases hbody
  have hverify := verifyCard_eq_ok.mpr ⟨_, hparts⟩
  rw [verifyCard_eq_ok.mpr ⟨_, selfSigned⟩] at hverify
  cases hverify
  exact ⟨rfl, by decide, by decide⟩

/-- Only the environment moves the clock. -/
theorem run_now (env : Env) (t : ℤ) (labels : List Label) (h : ∀ t', .environment t' ∉ labels) :
    (run env (.environment t :: labels)).shared.now = t := by
  induction labels using List.reverseRecOn with
  | nil => rfl
  | append_singleton labels l ih =>
    have hlabels : ∀ t', .environment t' ∉ labels := fun t' hmem =>
      h t' (List.mem_append_left _ hmem)
    have hstep := Pool.next_step (semantics env) (run env (.environment t :: labels)) l
    rw [← List.cons_append, run, Pool.run_snoc]
    change Pool.Step _ _ _ ((run env (.environment t :: labels)).next _ l) at hstep
    change ((run env (.environment t :: labels)).next _ l).shared.now = t
    generalize (run env (.environment t :: labels)).next (semantics env) l = w' at hstep
    cases hstep with
    | @perform _ _ _ op _ _ => cases op <;> exact ih hlabels
    | environment t' => exact absurd (List.mem_append_right _ (List.mem_singleton.mpr rfl)) (h t')
    | _ => exact ih hlabels

end AgentExchange.Identity
