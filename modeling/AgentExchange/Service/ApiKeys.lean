import AgentExchange.ControlPlane.Effects

/-!
# API keys

Operators mint, list and revoke API keys behind a bearer token. The table holds the hash of a key
and its first characters, and a presented key is looked up by its hash. Requests are served by
interleaved tasks over the table, together with the statements of the database layer that metering
and billing are meant to run; any statement may fail.
-/
namespace AgentExchange.ControlPlane

open Library
open Program (lift ensure okOr call)

/-! ## The table -/

structure ApiKeyRow where
  id : String
  keyHash : String
  keyPrefix : String
  customerId : String
  name : String
  tier : String
  createdAt : Timestamp
  lastUsedAt : Option Timestamp := none
  revokedAt : Option Timestamp := none
  usageCount : ℕ := 0
  deriving DecidableEq

/-- The columns that no statement rewrites. -/
def ApiKeyRow.fixed (row : ApiKeyRow) : ApiKeyRow :=
  { row with lastUsedAt := none, revokedAt := none, usageCount := 0 }

def generatePlaintext (buf : Bytes) : String := "aex_live_" ++ hexEncode buf

def hashPlaintext (sha256 : Bytes → Bytes) (plaintext : String) : String :=
  hexEncode (sha256 (intoBytes plaintext))

def prefixOf (plaintext : String) : String := String.ofList (plaintext.toList.take 12)

/-- The table `api_keys` and the clock of the database. -/
structure KeyTable where
  rows : List ApiKeyRow := []
  dbNow : Timestamp := 0

namespace KeyTable

variable (t : KeyTable)

/-- The id is the one `gen_random_uuid` gives. -/
def insertRow (id hash keyPrefix customerId name tier : String) :
    Except SqlxError (ApiKeyRow × List ApiKeyRow) :=
  if t.rows.any fun r => r.id = id then .error (.uniqueViolation "api_keys_pkey")
  else if t.rows.any fun r => r.keyHash = hash then
    .error (.uniqueViolation "api_keys_key_hash_key")
  else
    let row : ApiKeyRow :=
      { id, keyHash := hash, keyPrefix, customerId, name, tier, createdAt := t.dbNow }
    .ok (row, t.rows ++ [row])

def listAll (limit : ℕ) : List ApiKeyRow :=
  (t.rows.insertionSort fun a b => b.createdAt ≤ a.createdAt).take limit

def findActiveByHash (hash : String) : Option ApiKeyRow :=
  t.rows.find? fun r => r.keyHash = hash && r.revokedAt.isNone

def bumpRow (now : Timestamp) (id : String) (r : ApiKeyRow) : ApiKeyRow :=
  if r.id = id then { r with usageCount := r.usageCount + 1, lastUsedAt := some now } else r

/-- `usage_count` is a `BIGINT`. -/
def bumpUsage (id : String) : Except SqlxError (List ApiKeyRow) :=
  if t.rows.any fun r => r.id = id && r.usageCount = 2 ^ 63 - 1 then
    .error (.other "bigint out of range")
  else .ok (t.rows.map (bumpRow t.dbNow id))

def activeOf (customerId : String) (r : ApiKeyRow) : Bool :=
  r.customerId = customerId && r.revokedAt.isNone

def revokeCustomerRow (now : Timestamp) (customerId : String) (r : ApiKeyRow) : ApiKeyRow :=
  if activeOf customerId r then { r with revokedAt := some now } else r

def revokeAllByCustomer (customerId : String) : ℕ × List ApiKeyRow :=
  (t.rows.countP (activeOf customerId), t.rows.map (revokeCustomerRow t.dbNow customerId))

/-- `COALESCE(revoked_at, now())`. -/
def revokeRow (now : Timestamp) (id : String) (r : ApiKeyRow) : ApiKeyRow :=
  if r.id = id then { r with revokedAt := some (r.revokedAt.getD now) } else r

def revoke (id : String) : Option ApiKeyRow × List ApiKeyRow :=
  let rows := t.rows.map (revokeRow t.dbNow id)
  (rows.find? fun r => r.id = id, rows)

end KeyTable

inductive KeyOp where
  | random16
  | insertRow (hash keyPrefix customerId name tier : String)
  | listAll (limit : ℕ)
  | findActiveByHash (hash : String)
  | bumpUsage (id : String)
  | revokeAllByCustomer (customerId : String)
  | revoke (id : String)

abbrev KeyOp.Answer : KeyOp → Type
  | .random16 => Bytes
  | .insertRow _ _ _ _ _ => Except SqlxError ApiKeyRow
  | .listAll _ => Except SqlxError (List ApiKeyRow)
  | .findActiveByHash _ => Except SqlxError (Option ApiKeyRow)
  | .bumpUsage _ => Except SqlxError Unit
  | .revokeAllByCustomer _ => Except SqlxError ℕ
  | .revoke _ => Except SqlxError (Option ApiKeyRow)

abbrev keyEffects : Signature := ⟨KeyOp, KeyOp.Answer⟩

/-- Whether a statement fails, the bytes drawn and the id given to a new row. -/
structure KeyChoice where
  failure : Option String := none
  bytes : Bytes := []
  uuid : String := ""

namespace KeyTable

/-- A statement; if it fails, nothing is written. -/
def statement {α : Type} (t : KeyTable) (c : KeyChoice)
    (out : Except SqlxError (α × List ApiKeyRow)) : Except SqlxError α × KeyTable :=
  match c.failure with
  | some message => (.error (.other message), t)
  | none =>
    match out with
    | .error e => (.error e, t)
    | .ok (a, rows) => (.ok a, { t with rows := rows })

def exec (t : KeyTable) : (op : KeyOp) → KeyChoice → op.Answer × KeyTable
  | .random16, c => (c.bytes, t)
  | .insertRow hash keyPrefix customerId name tier, c =>
    t.statement c (t.insertRow c.uuid hash keyPrefix customerId name tier)
  | .listAll limit, c => t.statement c (.ok (t.listAll limit, t.rows))
  | .findActiveByHash hash, c => t.statement c (.ok (t.findActiveByHash hash, t.rows))
  | .bumpUsage id, c => t.statement c ((t.bumpUsage id).map fun rows => ((), rows))
  | .revokeAllByCustomer customerId, c => t.statement c (.ok (t.revokeAllByCustomer customerId))
  | .revoke id, c => t.statement c (.ok (t.revoke id))

end KeyTable

/-! ## The gate -/

/-- A byte of a header value that `HeaderValue::to_str` takes. -/
def isVisible (b : UInt8) : Bool := (32 ≤ b && b < 127) || b == 9

def headerText (value : Bytes) : Option String :=
  if value.all isVisible then some (String.ofList (value.map fun b => Char.ofNat b.toNat)) else none

def minBearerLen : ℕ := 32

structure AdminError where
  status : ℕ
  code : String
  message : String
  deriving DecidableEq

/-- `[u8]::ct_eq` on slices of one length: every pair is compared. -/
def ctEq (a b : Bytes) : Bool := (a.zip b).foldl (fun equal p => (p.1 == p.2) && equal) true

/-- The comparison of tokens: of different lengths, what they have in common is compared for
nothing. -/
def tokensEqual (presented expected : Bytes) : Bool :=
  if presented.length = expected.length then ctEq presented expected else false

/-- What stands in front of every admin handler. -/
def requireAdminToken (adminToken : Option String) (authorization : Option Bytes) :
    Except AdminError Unit :=
  match adminToken with
  | none => .error ⟨503, "admin_disabled",
      "admin endpoints disabled on this server — set AEX_ADMIN_TOKEN and restart"⟩
  | some expected =>
    match (authorization.bind headerText).bind (dropStart "Bearer ") with
    | some presented =>
      if minBearerLen ≤ (intoBytes presented).length then
        if tokensEqual (intoBytes presented) (intoBytes expected) then .ok ()
        else .error ⟨403, "forbidden", "invalid admin token"⟩
      else .error ⟨401, "unauthorized", "missing or malformed bearer token"⟩
    | none => .error ⟨401, "unauthorized", "missing or malformed bearer token"⟩

def minAdminTokenLen : ℕ := 32

/-- How `Config::from_env` reads `AEX_ADMIN_TOKEN`; `none` if it is not set. -/
def configuredToken (value : Option String) : Except String (Option String) :=
  match value with
  | none => .ok none
  | some v =>
    if minAdminTokenLen ≤ (intoBytes v).length then .ok (some v)
    else if v.isEmpty then .ok none
    else .error ("must be at least " ++ toString minAdminTokenLen ++ " chars; got " ++
      toString (intoBytes v).length ++ " — generate with " ++ "`openssl rand -hex 16`")

theorem ctEq_iff {a b : Bytes} (h : a.length = b.length) : ctEq a b = true ↔ a = b := by
  have hfold (acc : Bool) : (a.zip b).foldl (fun equal p => (p.1 == p.2) && equal) acc = true ↔
      a = b ∧ acc = true := by
    induction a generalizing b acc with
    | nil => simp [List.length_eq_zero_iff.mp h.symm]
    | cons x a ih =>
      cases b with
      | nil => cases h
      | cons y b =>
        rw [List.zip_cons_cons, List.foldl_cons, ih (Nat.succ.inj h)]
        simp only [List.cons.injEq, Bool.and_eq_true, beq_iff_eq]
        constructor
        · rintro ⟨rfl, rfl, hacc⟩
          exact ⟨⟨rfl, rfl⟩, hacc⟩
        · rintro ⟨⟨rfl, rfl⟩, hacc⟩
          exact ⟨rfl, rfl, hacc⟩
  rw [ctEq, hfold]
  simp

theorem tokensEqual_iff {presented expected : Bytes} :
    tokensEqual presented expected = true ↔ presented = expected := by
  unfold tokensEqual
  split_ifs with h
  · exact ctEq_iff h
  · constructor
    · intro hfalse
      cases hfalse
    · rintro rfl
      exact absurd rfl h

theorem headerText_eq_some {value : Bytes} {text : String} :
    headerText value = some text ↔ value = intoBytes text ∧ value.all isVisible = true := by
  have hascii (hvisible : value.all isVisible = true) :
      intoBytes (String.ofList (value.map fun b => Char.ofNat b.toNat)) = value := by
    have hlt (b : UInt8) (hb : b ∈ value) : b.toNat < 128 := by
      have hall := List.all_eq_true.mp hvisible b hb
      simp only [isVisible, Bool.or_eq_true, Bool.and_eq_true, decide_eq_true_eq, beq_iff_eq,
        UInt8.lt_iff_toNat_lt] at hall
      rcases hall with ⟨-, hlt⟩ | rfl
      · exact hlt.trans (by decide)
      · decide
    have htoNat (b : UInt8) (hb : b ∈ value) : (Char.ofNat b.toNat).toNat = b.toNat := by
      have hvalid : b.toNat.isValidChar := Or.inl ((hlt b hb).trans (by decide))
      rw [Char.ofNat, dif_pos hvalid]
      rfl
    rw [intoBytes_of_isAscii, String.toList_ofList, List.map_map]
    · conv_rhs => rw [← List.map_id value]
      apply List.map_congr_left
      intro b hb
      change UInt8.ofNat (Char.ofNat b.toNat).toNat = b
      rw [htoNat b hb, UInt8.ofNat_toNat]
    · intro c hc
      rw [String.toList_ofList] at hc
      obtain ⟨b, hb, rfl⟩ := List.mem_map.mp hc
      simpa [isAscii, htoNat b hb] using hlt b hb
  unfold headerText
  split_ifs with hvisible
  · rw [Option.some.injEq]
    constructor
    · rintro rfl
      exact ⟨(hascii hvisible).symm, hvisible⟩
    · rintro ⟨hvalue, -⟩
      exact intoBytes_inj.mp ((hascii hvisible).trans hvalue)
  · simp [hvisible]

/-- The header bears the token. -/
def Bears (adminToken : Option String) (authorization : Option Bytes) : Prop :=
  ∃ token, adminToken = some token ∧ minBearerLen ≤ (intoBytes token).length ∧
    authorization = some (intoBytes ("Bearer " ++ token)) ∧
    (intoBytes ("Bearer " ++ token)).all isVisible = true

/-- The gate opens for a header that bears the configured token, and for no other. -/
theorem requireAdminToken_eq_ok {adminToken : Option String} {authorization : Option Bytes} :
    requireAdminToken adminToken authorization = .ok () ↔ Bears adminToken authorization := by
  constructor
  · intro h
    unfold requireAdminToken at h
    split at h
    · cases h
    · rename_i expected
      split at h
      · rename_i presented hpresented
        split_ifs at h with hlong hequal
        obtain ⟨text, htext, hdrop⟩ := Option.bind_eq_some_iff.mp hpresented
        obtain ⟨value, rfl, hvalue⟩ := Option.bind_eq_some_iff.mp htext
        obtain ⟨rfl, hvisible⟩ := headerText_eq_some.mp hvalue
        obtain rfl := dropStart_eq_some.mp hdrop
        obtain rfl := intoBytes_inj.mp (tokensEqual_iff.mp hequal)
        exact ⟨_, rfl, hlong, rfl, hvisible⟩
      · cases h
  · rintro ⟨token, rfl, hlong, rfl, hvisible⟩
    have hpresented : ((some (intoBytes ("Bearer " ++ token))).bind headerText).bind
        (dropStart "Bearer ") = some token := by
      rw [Option.bind_some, headerText_eq_some.mpr ⟨rfl, hvisible⟩, Option.bind_some,
        dropStart_eq_some]
    simp only [requireAdminToken, hpresented, if_pos hlong, tokensEqual_iff.mpr rfl, if_true]

/-- A token the server starts with opens the gate, if a header can hold it. -/
theorem requireAdminToken_of_configured {value : Option String} {token : String}
    (h : configuredToken value = .ok (some token))
    (hvisible : (intoBytes ("Bearer " ++ token)).all isVisible = true) :
    requireAdminToken (some token) (some (intoBytes ("Bearer " ++ token))) = .ok () := by
  have hlong : minBearerLen ≤ (intoBytes token).length := by
    unfold configuredToken at h
    split at h
    · cases h
    · rename_i v
      split_ifs at h with hlong
      · cases h
        exact hlong
      · cases h
  exact requireAdminToken_eq_ok.mpr ⟨token, rfl, hlong, rfl, hvisible⟩

/-! ## Requests -/

structure KeyEnv where
  sha256 : Bytes → Bytes
  adminToken : Option String

structure CreateApiKeyRequest where
  customerId : String
  name : String
  tier : String := "free"

structure ApiKeyView where
  id : String
  keyPrefix : String
  customerId : String
  name : String
  tier : String
  createdAt : Timestamp
  lastUsedAt : Option Timestamp
  revokedAt : Option Timestamp
  usageCount : ℕ
  deriving DecidableEq

def ApiKeyRow.view (r : ApiKeyRow) : ApiKeyView :=
  ⟨r.id, r.keyPrefix, r.customerId, r.name, r.tier, r.createdAt, r.lastUsedAt, r.revokedAt,
    r.usageCount⟩

/-- Admin requests, and the statements of the database layer that no route reaches yet. -/
inductive KeyRequest where
  | createApiKey (authorization : Option Bytes) (req : CreateApiKeyRequest)
  | listApiKeys (authorization : Option Bytes)
  | revokeApiKey (authorization : Option Bytes) (id : String)
  | findActiveByHash (hash : String)
  | bumpUsage (id : String)
  | revokeAllByCustomer (customerId : String)

inductive KeyResponse where
  | created (key : ApiKeyView) (apiKey : String)
  | listed (count : ℕ) (keys : List ApiKeyView)
  | revoked (key : ApiKeyView)
  | found (row : Option ApiKeyRow)
  | bumped
  | revokedAll (count : ℕ)

inductive KeyError where
  | admin (e : AdminError)
  | api (e : ApiError)

abbrev KeyProg := Program keyEffects

/-- The `?` on a result of the database. -/
def orFailed {α : Type} (x : Except SqlxError α) : KeyProg ApiError α := lift (x.mapError .ofSqlx)

def createApiKey (env : KeyEnv) (req : CreateApiKeyRequest) : KeyProg ApiError KeyResponse := do
  ensure (req.customerId.isEmpty = false) (.badRequest "customer_id is empty")
  ensure (req.name.isEmpty = false) (.badRequest "name is empty")
  ensure (req.tier.isEmpty = false) (.badRequest "tier is empty")
  let buf ← call (S := keyEffects) .random16
  let plaintext := generatePlaintext buf
  let inserted ← call (S := keyEffects) (.insertRow (hashPlaintext env.sha256 plaintext)
    (prefixOf plaintext) req.customerId req.name req.tier)
  let row ← orFailed inserted
  pure (.created row.view plaintext)

def listLimit : ℕ := 500

def listApiKeys : KeyProg ApiError KeyResponse := do
  let listed ← call (S := keyEffects) (.listAll listLimit)
  let rows ← orFailed listed
  let keys := rows.map ApiKeyRow.view
  pure (.listed keys.length keys)

def revokeApiKey (id : String) : KeyProg ApiError KeyResponse := do
  let revoked ← call (S := keyEffects) (.revoke id)
  let found ← orFailed revoked
  let row ← okOr found (.notFound ("api key " ++ id ++ " not found"))
  pure (.revoked row.view)

/-- A statement on its own. -/
def runStatement {α : Type} (op : KeyOp) (ok : op.Answer → Except SqlxError α)
    (f : α → KeyResponse) : KeyProg ApiError KeyResponse := do
  let answer ← call (S := keyEffects) op
  let a ← orFailed (ok answer)
  pure (f a)

/-- The middleware in front of a handler. -/
def gated (env : KeyEnv) (authorization : Option Bytes) (next : KeyProg ApiError KeyResponse) :
    KeyProg KeyError KeyResponse := do
  lift ((requireAdminToken env.adminToken authorization).mapError .admin)
  next.mapError .api

def keyHandler (env : KeyEnv) : KeyRequest → KeyProg KeyError KeyResponse
  | .createApiKey authorization req => gated env authorization (createApiKey env req)
  | .listApiKeys authorization => gated env authorization listApiKeys
  | .revokeApiKey authorization id => gated env authorization (revokeApiKey id)
  | .findActiveByHash hash =>
    (runStatement (.findActiveByHash hash) id .found).mapError .api
  | .bumpUsage id =>
    (runStatement (.bumpUsage id) (fun answer => answer) fun _ => .bumped).mapError .api
  | .revokeAllByCustomer customerId =>
    (runStatement (.revokeAllByCustomer customerId) id .revokedAll).mapError .api

/-- The environment moves the clock of the database. -/
def keySemantics (env : KeyEnv) :
    Semantics keyEffects KeyTable KeyRequest KeyError KeyResponse KeyChoice Timestamp where
  handler := keyHandler env
  exec t op c := t.exec op c
  environment now t := { t with dbNow := now }

abbrev KeyLabel := Library.Label KeyRequest KeyChoice Timestamp
abbrev KeyWorld := Pool keyEffects KeyTable KeyRequest KeyError KeyResponse
abbrev KeyTrace := List (Entry keyEffects KeyTable KeyRequest)
abbrev KeyHistory := List (Library.Event keyEffects)

/-- The server's keys after a run, started on an empty table. -/
def keyRun (env : KeyEnv) (labels : List KeyLabel) : KeyWorld :=
  Pool.run (keySemantics env) {} labels

/-! ## What the handlers do -/

/-- The statement inserted the row. -/
def Minted (row : ApiKeyRow) (e : Library.Event keyEffects) : Prop :=
  ∃ hash keyPrefix customerId name tier,
    e = ⟨.insertRow hash keyPrefix customerId name tier, .ok row⟩

/-- The statement revoked the key, if it was not revoked before. -/
def Revokes (row : ApiKeyRow) : Library.Event keyEffects → Prop
  | ⟨.revoke id, .ok (some _)⟩ => id = row.id
  | ⟨.revokeAllByCustomer customerId, .ok _⟩ => customerId = row.customerId
  | _ => False

def Drew (past : KeyHistory) (buf : Bytes) : Prop :=
  (⟨.random16, buf⟩ : Library.Event keyEffects) ∈ past

/-- Which request performs a statement. -/
def keyPermits (env : KeyEnv) (r : KeyRequest) (past : KeyHistory) : KeyOp → Prop
  | .insertRow hash keyPrefix customerId name tier => ∃ authorization req buf,
      r = .createApiKey authorization req ∧ Bears env.adminToken authorization ∧ Drew past buf ∧
      hash = hashPlaintext env.sha256 (generatePlaintext buf) ∧
      keyPrefix = prefixOf (generatePlaintext buf) ∧
      customerId = req.customerId ∧ name = req.name ∧ tier = req.tier
  | .listAll _ => ∃ authorization,
      r = .listApiKeys authorization ∧ Bears env.adminToken authorization
  | .revoke id => ∃ authorization,
      r = .revokeApiKey authorization id ∧ Bears env.adminToken authorization
  | .revokeAllByCustomer customerId => r = .revokeAllByCustomer customerId
  | _ => True

/-- A key is returned to the request that inserted its row. -/
def keyEnsures (env : KeyEnv) (past : KeyHistory) : Except KeyError KeyResponse → Prop
  | .ok (.created key apiKey) => ∃ buf row hash keyPrefix customerId name tier, Drew past buf ∧
      apiKey = generatePlaintext buf ∧ hash = hashPlaintext env.sha256 apiKey ∧
      keyPrefix = prefixOf apiKey ∧ key = row.view ∧
      (⟨.insertRow hash keyPrefix customerId name tier, .ok row⟩ : Library.Event keyEffects) ∈ past
  | _ => True

section Handlers

variable {env : KeyEnv} {r : KeyRequest}

theorem spec_gated {authorization : Option Bytes} {next : KeyProg ApiError KeyResponse}
    (h : Bears env.adminToken authorization →
      next.Spec (keyPermits env r) (fun past out => keyEnsures env past (out.mapError .api)) []) :
    (gated env authorization next).Spec (keyPermits env r) (keyEnsures env) [] := by
  unfold gated
  rw [Program.spec_lift_bind]
  refine ⟨?_, fun e _ => trivial⟩
  intro u hu
  cases u
  exact Program.spec_mapError.mpr
    (h (requireAdminToken_eq_ok.mp (except_mapError_eq_ok.mp hu)))

/-- The `?` on a result of the database, in front of the rest of a handler. -/
theorem spec_orFailed_bind {α : Type} {x : Except SqlxError α}
    {f : α → KeyProg ApiError KeyResponse} {past : KeyHistory} (h : ∀ a, x = .ok a → (f a).Spec (keyPermits env r)
      (fun past out => keyEnsures env past (out.mapError .api)) past) :
    (orFailed x >>= f).Spec (keyPermits env r)
      (fun past out => keyEnsures env past (out.mapError .api)) past := by
  unfold orFailed
  rw [Program.spec_lift_bind]
  exact ⟨fun a ha => h a (except_mapError_eq_ok.mp ha), fun e _ => trivial⟩

theorem createApiKey_spec {authorization : Option Bytes} {req : CreateApiKeyRequest}
    (hreq : r = .createApiKey authorization req) (hbears : Bears env.adminToken authorization) :
    (createApiKey env req).Spec (keyPermits env r)
      (fun past out => keyEnsures env past (out.mapError .api)) [] := by
  unfold createApiKey
  refine Program.spec_ensure_bind.mpr ⟨?_, fun _ => trivial⟩
  intro _
  refine Program.spec_ensure_bind.mpr ⟨?_, fun _ => trivial⟩
  intro _
  refine Program.spec_ensure_bind.mpr ⟨?_, fun _ => trivial⟩
  intro _
  refine Program.spec_call_bind.mpr ⟨trivial, fun buf => ?_⟩
  refine Program.spec_call_bind.mpr ⟨?_, fun inserted => ?_⟩
  · exact ⟨authorization, req, buf, hreq, hbears, by simp [Drew], rfl, rfl, rfl, rfl, rfl⟩
  apply spec_orFailed_bind
  rintro row rfl
  exact ⟨buf, row, _, _, _, _, _, by simp [Drew], rfl, rfl, rfl, rfl,
    List.mem_append_right _ (List.mem_singleton_self _)⟩

theorem listApiKeys_spec {authorization : Option Bytes} (hreq : r = .listApiKeys authorization)
    (hbears : Bears env.adminToken authorization) :
    listApiKeys.Spec (keyPermits env r)
      (fun past out => keyEnsures env past (out.mapError .api)) [] := by
  refine Program.spec_call_bind.mpr ⟨⟨authorization, hreq, hbears⟩, fun listed => ?_⟩
  apply spec_orFailed_bind
  intro rows _
  trivial

theorem revokeApiKey_spec {authorization : Option Bytes} {id : String}
    (hreq : r = .revokeApiKey authorization id) (hbears : Bears env.adminToken authorization) :
    (revokeApiKey id).Spec (keyPermits env r)
      (fun past out => keyEnsures env past (out.mapError .api)) [] := by
  refine Program.spec_call_bind.mpr ⟨⟨authorization, hreq, hbears⟩, fun revoked => ?_⟩
  apply spec_orFailed_bind
  intro found _
  refine Program.spec_okOr_bind.mpr ⟨?_, fun _ => trivial⟩
  intro row _
  trivial

theorem runStatement_spec {α : Type} {op : KeyOp} {ok : op.Answer → Except SqlxError α}
    {f : α → KeyResponse} (hop : keyPermits env r [] op)
    (hf : ∀ a key apiKey, f a ≠ .created key apiKey) :
    ((runStatement op ok f).mapError .api).Spec (keyPermits env r) (keyEnsures env) [] := by
  apply Program.spec_mapError.mpr
  refine Program.spec_call_bind.mpr ⟨hop, fun answer => ?_⟩
  apply spec_orFailed_bind
  intro a _
  change keyEnsures env _ (.ok (f a))
  cases hfa : f a with
  | created key apiKey => exact absurd hfa (hf a key apiKey)
  | _ => trivial

/-- Statements that change keys are run for requests that may do so. -/
theorem keyHandler_spec (env : KeyEnv) (r : KeyRequest) :
    (keyHandler env r).Spec (keyPermits env r) (keyEnsures env) [] := by
  cases r with
  | createApiKey authorization req => exact spec_gated fun hbears => createApiKey_spec rfl hbears
  | listApiKeys authorization => exact spec_gated fun hbears => listApiKeys_spec rfl hbears
  | revokeApiKey authorization id => exact spec_gated fun hbears => revokeApiKey_spec rfl hbears
  | findActiveByHash hash =>
    refine runStatement_spec trivial fun _ _ _ h => ?_
    cases h
  | bumpUsage id => exact runStatement_spec trivial nofun
  | revokeAllByCustomer customerId => exact runStatement_spec rfl nofun

end Handlers

/-! ## The ledger of keys -/

/-- The table of keys, as the statements that took effect on it left it. -/
structure ApiKeyLedger (trace : KeyTrace) (rows : List ApiKeyRow) : Prop where
  ids : (rows.map (·.id)).Nodup
  hashes : (rows.map (·.keyHash)).Nodup
  minted : ∀ row ∈ rows, ∃ e ∈ trace, ∃ row₀, Minted row₀ e.event ∧ row.fixed = row₀.fixed
  kept : ∀ past e rest row₀, trace = past ++ e :: rest → Minted row₀ e.event →
    ∃ row ∈ rows, row.fixed = row₀.fixed ∧
      (row.revokedAt = none ↔ ∀ e' ∈ rest, ¬Revokes row₀ e'.event)

/-- Everything one statement can do to the table. -/
inductive KeyStep (rows : List ApiKeyRow) (event : Library.Event keyEffects) :
    List ApiKeyRow → Prop
  | insert {row : ApiKeyRow} (hevent : Minted row event) (hfresh : row.revokedAt = none)
      (hid : ∀ r ∈ rows, r.id ≠ row.id) (hhash : ∀ r ∈ rows, r.keyHash ≠ row.keyHash) :
    KeyStep rows event (rows ++ [row])
  | update (f : ApiKeyRow → ApiKeyRow) (hfixed : ∀ row, (f row).fixed = row.fixed)
      (hevent : ∀ row, ¬Minted row event)
      (hrevoked : ∀ row ∈ rows,
        (f row).revokedAt = none ↔ row.revokedAt = none ∧ ¬Revokes row event) :
    KeyStep rows event (rows.map f)

section Ledger

variable {trace : KeyTrace} {rows : List ApiKeyRow}

theorem ApiKeyRow.columns_of_fixed {row row' : ApiKeyRow} (h : row.fixed = row'.fixed) :
    row.id = row'.id ∧ row.keyHash = row'.keyHash ∧ row.customerId = row'.customerId :=
  ⟨congrArg (·.id) h, congrArg (·.keyHash) h, congrArg (·.customerId) h⟩

theorem revokes_congr {row row' : ApiKeyRow} (h : row.fixed = row'.fixed)
    (e : Library.Event keyEffects) : Revokes row e ↔ Revokes row' e := by
  obtain ⟨hid, -, hcustomer⟩ := ApiKeyRow.columns_of_fixed h
  unfold Revokes
  split
  · rw [hid]
  · rw [hcustomer]
  · rfl

theorem not_minted {event : Library.Event keyEffects}
    (h : ∀ hash keyPrefix customerId name tier,
      event.op ≠ .insertRow hash keyPrefix customerId name tier)
    (row : ApiKeyRow) : ¬Minted row event := by
  rintro ⟨_, _, _, _, _, hevent⟩
  exact h _ _ _ _ _ (congrArg (·.op) hevent)

theorem not_minted_error {hash keyPrefix customerId name tier : String} {e : SqlxError}
    (row : ApiKeyRow) : ¬Minted row ⟨.insertRow hash keyPrefix customerId name tier, .error e⟩ := by
  rintro ⟨_, _, _, _, _, hevent⟩
  cases hevent

theorem not_revokes_of_minted {row row' : ApiKeyRow} {e : Library.Event keyEffects}
    (h : Minted row e) : ¬Revokes row' e := by
  obtain ⟨_, _, _, _, _, rfl⟩ := h
  exact nofun

theorem apiKeyLedger_nil : ApiKeyLedger [] [] := by
  constructor <;> simp

theorem ApiKeyLedger.step (h : ApiKeyLedger trace rows) {x : Entry keyEffects KeyTable KeyRequest}
    {rows' : List ApiKeyRow} (hstep : KeyStep rows x.event rows') :
    ApiKeyLedger (trace ++ [x]) rows' := by
  cases hstep with
  | @insert row hevent hfresh hid hhash =>
    refine ⟨?_, ?_, ?_, ?_⟩
    · rw [List.map_append, List.nodup_append]
      refine ⟨h.ids, List.nodup_singleton _, ?_⟩
      intro a ha b hb
      obtain ⟨r, hr, rfl⟩ := List.mem_map.mp ha
      rw [List.mem_singleton.mp hb]
      exact hid r hr
    · rw [List.map_append, List.nodup_append]
      refine ⟨h.hashes, List.nodup_singleton _, ?_⟩
      intro a ha b hb
      obtain ⟨r, hr, rfl⟩ := List.mem_map.mp ha
      rw [List.mem_singleton.mp hb]
      exact hhash r hr
    · intro r hr
      rcases List.mem_append.mp hr with hr | hr
      · obtain ⟨e, he, hminted⟩ := h.minted r hr
        exact ⟨e, List.mem_append_left _ he, hminted⟩
      · rw [List.mem_singleton.mp hr]
        exact ⟨x, List.mem_append_right _ (List.mem_singleton_self _), row, hevent, rfl⟩
    · intro past e rest row₀ htrace hminted
      rcases snoc_eq_append_cons htrace with ⟨rfl, rfl, rfl⟩ | ⟨rest', rfl, hold⟩
      · obtain ⟨_, _, _, _, _, hevent⟩ := hevent
        obtain ⟨_, _, _, _, _, hminted⟩ := hminted
        rw [hevent] at hminted
        obtain rfl : row = row₀ := by cases hminted; rfl
        exact ⟨row, List.mem_append_right _ (List.mem_singleton_self _), rfl, by simpa using hfresh⟩
      · obtain ⟨r, hr, hfixed, hactive⟩ := h.kept past e rest' row₀ hold hminted
        refine ⟨r, List.mem_append_left _ hr, hfixed, hactive.trans ?_⟩
        simp [or_imp, forall_and, not_revokes_of_minted hevent]
  | update f hfixed hevent hrevoked =>
    have hmap {β : Type} (g : ApiKeyRow → β) (hg : ∀ row, g (f row) = g row) :
        (rows.map f).map g = rows.map g := by
      rw [List.map_map]
      exact List.map_congr_left fun row _ => hg row
    refine ⟨?_, ?_, ?_, ?_⟩
    · rw [hmap _ fun row => (ApiKeyRow.columns_of_fixed (hfixed row)).1]
      exact h.ids
    · rw [hmap _ fun row => (ApiKeyRow.columns_of_fixed (hfixed row)).2.1]
      exact h.hashes
    · intro r hr
      obtain ⟨row, hrow, rfl⟩ := List.mem_map.mp hr
      obtain ⟨e, he, row₀, hminted, hsame⟩ := h.minted row hrow
      exact ⟨e, List.mem_append_left _ he, row₀, hminted, (hfixed row).trans hsame⟩
    · intro past e rest row₀ htrace hminted
      rcases snoc_eq_append_cons htrace with ⟨rfl, rfl, rfl⟩ | ⟨rest', rfl, hold⟩
      · exact absurd hminted (hevent row₀)
      · obtain ⟨r, hr, hsame, hactive⟩ := h.kept past e rest' row₀ hold hminted
        refine ⟨f r, List.mem_map_of_mem hr, (hfixed r).trans hsame, ?_⟩
        rw [hrevoked r hr, hactive, revokes_congr hsame]
        simp [or_imp, forall_and]

theorem keyStep_quiet {event : Library.Event keyEffects} (hminted : ∀ row, ¬Minted row event)
    (hrevokes : ∀ row ∈ rows, ¬Revokes row event) : KeyStep rows event rows := by
  have hupdate : KeyStep rows event (rows.map id) :=
    .update id (fun _ => rfl) hminted fun row hrow => (and_iff_left (hrevokes row hrow)).symm
  rwa [List.map_id] at hupdate

theorem bumpRow_step (now : Timestamp) (id : String) (answer : Except SqlxError Unit) :
    KeyStep rows ⟨.bumpUsage id, answer⟩ (rows.map (KeyTable.bumpRow now id)) := by
  refine .update _ ?_ (not_minted nofun) ?_
  · intro row
    unfold KeyTable.bumpRow
    split_ifs <;> rfl
  · intro row _
    rw [and_iff_left (by exact fun h => h)]
    unfold KeyTable.bumpRow
    split_ifs <;> rfl

theorem revokeCustomer_step (now : Timestamp) (customerId : String) (n : ℕ) :
    KeyStep rows ⟨.revokeAllByCustomer customerId, .ok n⟩
      (rows.map (KeyTable.revokeCustomerRow now customerId)) := by
  refine .update _ ?_ (not_minted nofun) ?_
  · intro row
    unfold KeyTable.revokeCustomerRow
    split_ifs <;> rfl
  · intro row _
    change _ ↔ row.revokedAt = none ∧ ¬customerId = row.customerId
    unfold KeyTable.revokeCustomerRow KeyTable.activeOf
    by_cases hcustomer : row.customerId = customerId
    · cases hrevoked : row.revokedAt <;> simp [hcustomer, hrevoked]
    · simp [hcustomer, Ne.symm hcustomer]

theorem revokeRow_step (now : Timestamp) (id : String) :
    KeyStep rows
      ⟨.revoke id, .ok ((rows.map (KeyTable.revokeRow now id)).find? fun r => r.id = id)⟩
      (rows.map (KeyTable.revokeRow now id)) := by
  have hid (row : ApiKeyRow) : (KeyTable.revokeRow now id row).id = row.id := by
    unfold KeyTable.revokeRow
    split_ifs <;> rfl
  refine .update _ ?_ (not_minted nofun) ?_
  · intro row
    unfold KeyTable.revokeRow
    split_ifs <;> rfl
  · intro row hrow
    by_cases hrowId : row.id = id
    · have hsome : ((rows.map (KeyTable.revokeRow now id)).find? fun r => r.id = id).isSome :=
        List.find?_isSome.mpr ⟨KeyTable.revokeRow now id row, List.mem_map_of_mem hrow,
          decide_eq_true ((hid row).trans hrowId)⟩
      obtain ⟨found, hfound⟩ := Option.isSome_iff_exists.mp hsome
      rw [hfound]
      change _ ↔ row.revokedAt = none ∧ ¬id = row.id
      simp [KeyTable.revokeRow, hrowId]
    · have hnot : ¬Revokes row ⟨.revoke id,
          .ok ((rows.map (KeyTable.revokeRow now id)).find? fun r => r.id = id)⟩ := by
        cases (rows.map (KeyTable.revokeRow now id)).find? fun r => r.id = id with
        | none => exact fun h => h
        | some found => exact fun h => hrowId h.symm
      rw [and_iff_left hnot, KeyTable.revokeRow, if_neg hrowId]

theorem insertRow_eq_ok {t : KeyTable} {id hash keyPrefix customerId name tier : String}
    {row : ApiKeyRow} {rows' : List ApiKeyRow}
    (h : t.insertRow id hash keyPrefix customerId name tier = .ok (row, rows')) :
    rows' = t.rows ++ [row] ∧ (∀ r ∈ t.rows, r.id ≠ row.id) ∧
      (∀ r ∈ t.rows, r.keyHash ≠ row.keyHash) ∧
      row = { id, keyHash := hash, keyPrefix, customerId, name, tier, createdAt := t.dbNow } := by
  unfold KeyTable.insertRow at h
  split_ifs at h with hid hhash
  obtain ⟨rfl, rfl⟩ := Prod.mk.inj (Except.ok.inj h)
  simp only [List.any_eq_true, decide_eq_true_eq, not_exists, not_and] at hid hhash
  exact ⟨rfl, hid, hhash, rfl⟩

/-- A statement fails and writes nothing, or takes effect. -/
theorem statement_cases {α : Type} (t : KeyTable) (c : KeyChoice)
    (out : Except SqlxError (α × List ApiKeyRow)) :
    (∃ e, t.statement c out = (.error e, t)) ∨
      ∃ a rows, out = .ok (a, rows) ∧ t.statement c out = (.ok a, { t with rows := rows }) := by
  unfold KeyTable.statement
  cases c.failure with
  | some message => exact Or.inl ⟨_, rfl⟩
  | none =>
    match out with
    | .error e => exact Or.inl ⟨e, rfl⟩
    | .ok (a, rows) => exact Or.inr ⟨a, rows, rfl, rfl⟩

theorem exec_keyStep (t : KeyTable) (op : KeyOp) (c : KeyChoice) :
    KeyStep t.rows ⟨op, (t.exec op c).1⟩ (t.exec op c).2.rows := by
  cases op with
  | random16 => exact keyStep_quiet (not_minted nofun) fun _ _ h => h
  | insertRow hash keyPrefix customerId name tier =>
    simp only [KeyTable.exec]
    rcases statement_cases t c (t.insertRow c.uuid hash keyPrefix customerId name tier) with
      ⟨e, h⟩ | ⟨row, rows, hinsert, h⟩ <;> rw [h]
    · exact keyStep_quiet not_minted_error fun _ _ h => h
    · obtain ⟨rfl, hid, hhash, hrow⟩ := insertRow_eq_ok hinsert
      exact .insert ⟨_, _, _, _, _, rfl⟩ (by rw [hrow]) hid hhash
  | listAll limit =>
    simp only [KeyTable.exec]
    rcases statement_cases t c (.ok (t.listAll limit, t.rows)) with
      ⟨e, h⟩ | ⟨listed, rows, hout, h⟩ <;> rw [h]
    · exact keyStep_quiet (not_minted nofun) fun _ _ h => h
    · cases hout
      exact keyStep_quiet (not_minted nofun) fun _ _ h => h
  | findActiveByHash hash =>
    simp only [KeyTable.exec]
    rcases statement_cases t c (.ok (t.findActiveByHash hash, t.rows)) with
      ⟨e, h⟩ | ⟨found, rows, hout, h⟩ <;> rw [h]
    · exact keyStep_quiet (not_minted nofun) fun _ _ h => h
    · cases hout
      exact keyStep_quiet (not_minted nofun) fun _ _ h => h
  | bumpUsage id =>
    simp only [KeyTable.exec]
    rcases statement_cases t c ((t.bumpUsage id).map fun rows => ((), rows)) with
      ⟨e, h⟩ | ⟨_, rows, hout, h⟩ <;> rw [h]
    · exact keyStep_quiet (not_minted nofun) fun _ _ h => h
    · unfold KeyTable.bumpUsage at hout
      split_ifs at hout
      · cases hout
      · obtain rfl : t.rows.map (KeyTable.bumpRow t.dbNow id) = rows :=
          congrArg Prod.snd (Except.ok.inj hout)
        exact bumpRow_step t.dbNow id _
  | revokeAllByCustomer customerId =>
    simp only [KeyTable.exec]
    rcases statement_cases t c (.ok (t.revokeAllByCustomer customerId)) with
      ⟨e, h⟩ | ⟨n, rows, hout, h⟩ <;> rw [h]
    · exact keyStep_quiet (not_minted nofun) fun _ _ h => h
    · cases hout
      exact revokeCustomer_step t.dbNow customerId _
  | revoke id =>
    simp only [KeyTable.exec]
    rcases statement_cases t c (.ok (t.revoke id)) with
      ⟨e, h⟩ | ⟨found, rows, hout, h⟩ <;> rw [h]
    · exact keyStep_quiet (not_minted nofun) fun _ _ h => h
    · cases hout
      exact revokeRow_step t.dbNow id

end Ledger

section Runs

variable {env : KeyEnv} {labels : List KeyLabel}

theorem keyRun_ledger (env : KeyEnv) (labels : List KeyLabel) :
    ApiKeyLedger (keyRun env labels).trace (keyRun env labels).shared.rows := by
  refine Pool.run_trace_induction (C := fun _ _ => True)
    (J := fun trace t => ApiKeyLedger trace t.rows) (keyHandler_spec env) apiKeyLedger_nil ?_
    (fun _ _ _ h => h) labels (Pool.along_true _ _ _)
  intro p i c r op k _ _ _ h
  exact h.step (exec_keyStep p.shared op c)

/-- A row has the columns that were given to its insertion. -/
theorem columns_of_minted {e : Entry keyEffects KeyTable KeyRequest}
    (he : e ∈ (keyRun env labels).trace) {hash keyPrefix customerId name tier : String}
    {row : ApiKeyRow}
    (hevent : e.event = ⟨.insertRow hash keyPrefix customerId name tier, .ok row⟩) :
    row.keyHash = hash ∧ row.keyPrefix = keyPrefix ∧ row.customerId = customerId := by
  obtain ⟨c, hanswer⟩ := (Pool.run_conforms (keySemantics env) {} labels).answered e he
  obtain ⟨i, r, t, event⟩ := e
  dsimp only at hevent hanswer
  subst hevent
  change .ok row = (t.statement c _).1 at hanswer
  rcases statement_cases t c (t.insertRow c.uuid hash keyPrefix customerId name tier) with
    ⟨e, h⟩ | ⟨row', rows', hinsert, h⟩ <;> rw [h] at hanswer
  · cases hanswer
  · obtain rfl : row = row' := Except.ok.inj hanswer
    obtain ⟨-, -, -, hrow⟩ := insertRow_eq_ok hinsert
    rw [hrow]
    exact ⟨rfl, rfl, rfl⟩

/-- The row was inserted for a key drawn by the same request, which bears the admin token. -/
structure MintedFor (env : KeyEnv) (w : KeyWorld) (e : Entry keyEffects KeyTable KeyRequest)
    (row : ApiKeyRow) (apiKey : String) : Prop where
  inserted : Minted row e.event
  drawn : ∃ buf, Drew (Pool.eventsOf w.trace e.task) buf ∧ apiKey = generatePlaintext buf
  hash : row.keyHash = hashPlaintext env.sha256 apiKey
  shown : row.keyPrefix = prefixOf apiKey
  request : ∃ authorization req, e.request = .createApiKey authorization req ∧
    Bears env.adminToken authorization ∧ row.customerId = req.customerId

theorem request_of_minted {e : Entry keyEffects KeyTable KeyRequest} {row : ApiKeyRow}
    (he : e ∈ (keyRun env labels).trace) (hminted : Minted row e.event) :
    (∃ apiKey, MintedFor env (keyRun env labels) e row apiKey) ∧
    ∃ authorization req, e.request = .createApiKey authorization req ∧
      Bears env.adminToken authorization ∧ row.customerId = req.customerId := by
  obtain ⟨past, rest, htrace⟩ := List.append_of_mem he
  have hpermits := (Pool.run_conforms (keySemantics env) {} labels).operation_spec
    (keyHandler_spec env) htrace
  obtain ⟨hash, keyPrefix, customerId, name, tier, hevent⟩ := id hminted
  obtain ⟨hhash, hprefix, hcustomer⟩ := columns_of_minted he hevent
  rw [hevent] at hpermits
  obtain ⟨authorization, req, buf, hreq, hbears, hdrew, hhash', hprefix', hcustomer', -⟩ := hpermits
  have hrequest : ∃ authorization req, e.request = .createApiKey authorization req ∧
      Bears env.adminToken authorization ∧ row.customerId = req.customerId :=
    ⟨authorization, req, hreq, hbears, hcustomer.trans hcustomer'⟩
  have hdrawn : Drew (Pool.eventsOf (keyRun env labels).trace e.task) buf := by
    rw [htrace, Pool.eventsOf_append]
    exact List.mem_append_left _ hdrew
  exact ⟨⟨generatePlaintext buf, hminted, ⟨buf, hdrawn, rfl⟩, hhash.trans hhash',
    hprefix.trans hprefix', hrequest⟩, hrequest⟩

/-- A key is found if and only if one with its hash was minted and not revoked since. -/
theorem find_iff_active {hash : String} :
    ((keyRun env labels).shared.findActiveByHash hash).isSome ↔
      ∃ past e rest row, (keyRun env labels).trace = past ++ e :: rest ∧ Minted row e.event ∧
        row.keyHash = hash ∧ ∀ e' ∈ rest, ¬Revokes row e'.event := by
  have hledger := keyRun_ledger env labels
  unfold KeyTable.findActiveByHash
  rw [List.find?_isSome]
  constructor
  · rintro ⟨row, hrow, hactive⟩
    obtain ⟨hhash, hnone⟩ : row.keyHash = hash ∧ row.revokedAt = none := by
      simpa [Option.isNone_iff_eq_none] using hactive
    obtain ⟨e, he, row₀, hminted, hfixed⟩ := hledger.minted row hrow
    obtain ⟨past, rest, htrace⟩ := List.append_of_mem he
    obtain ⟨row', hrow', hfixed', hiff⟩ := hledger.kept past e rest row₀ htrace hminted
    have hcolumns := ApiKeyRow.columns_of_fixed (hfixed'.trans hfixed.symm)
    obtain rfl := List.inj_on_of_nodup_map hledger.ids hrow' hrow hcolumns.1
    refine ⟨past, e, rest, row₀, htrace, hminted, ?_, hiff.mp hnone⟩
    rw [← hhash, (ApiKeyRow.columns_of_fixed hfixed).2.1]
  · rintro ⟨past, e, rest, row₀, htrace, hminted, hhash, hkept⟩
    obtain ⟨row, hrow, hfixed, hiff⟩ := hledger.kept past e rest row₀ htrace hminted
    refine ⟨row, hrow, ?_⟩
    simp [(ApiKeyRow.columns_of_fixed hfixed).2.1, hhash, hiff.mpr hkept]

/-- In every run a presented key is accepted if and only if one with its hash was minted, by a
request that bears the admin token and has drawn it, and not revoked since. A key that is returned
is one of these. Only a request that bears the admin token revokes a single key. -/
theorem api_key_lifecycle (env : KeyEnv) (labels : List KeyLabel) :
    (∀ plaintext : String, ((keyRun env labels).shared.findActiveByHash
        (hashPlaintext env.sha256 plaintext)).isSome ↔
      ∃ past e rest row apiKey, (keyRun env labels).trace = past ++ e :: rest ∧
        MintedFor env (keyRun env labels) e row apiKey ∧
        hashPlaintext env.sha256 apiKey = hashPlaintext env.sha256 plaintext ∧
        ∀ e' ∈ rest, ¬Revokes row e'.event) ∧
    (∀ i key apiKey, (keyRun env labels).outcome i = some (.ok (.created key apiKey)) →
      ∃ e ∈ (keyRun env labels).trace, e.task = i ∧ ∃ row, key = row.view ∧
        MintedFor env (keyRun env labels) e row apiKey) ∧
    ∀ e ∈ (keyRun env labels).trace, ∀ row, Revokes row e.event →
      (∃ authorization, e.request = .revokeApiKey authorization row.id ∧
        Bears env.adminToken authorization) ∨ e.request = .revokeAllByCustomer row.customerId := by
  have hconf := Pool.run_conforms (keySemantics env) {} labels
  refine ⟨?_, ?_, ?_⟩
  · intro plaintext
    rw [find_iff_active]
    constructor
    · rintro ⟨past, e, rest, row, htrace, hminted, hhash, hkept⟩
      have he : e ∈ (keyRun env labels).trace := by simp [htrace]
      obtain ⟨apiKey, hfor⟩ := (request_of_minted he hminted).1
      exact ⟨past, e, rest, row, apiKey, htrace, hfor, hfor.hash.symm.trans hhash, hkept⟩
    · rintro ⟨past, e, rest, row, apiKey, htrace, hfor, hhash, hkept⟩
      exact ⟨past, e, rest, row, htrace, hfor.inserted, hfor.hash.trans hhash, hkept⟩
  · intro i key apiKey hout
    obtain ⟨t, ht, -⟩ := Option.bind_eq_some_iff.mp hout
    obtain ⟨buf, row, hash, keyPrefix, customerId, name, tier, hdrew, rfl, rfl, rfl, rfl, hsaw⟩ :=
      hconf.outcome_spec (keyHandler_spec env) ht hout
    obtain ⟨e, he, rfl, hevent⟩ := Pool.mem_eventsOf.mp hsaw
    obtain ⟨hhash, hprefix, -⟩ := columns_of_minted he hevent
    have hminted : Minted row e.event := ⟨_, _, _, _, _, hevent⟩
    exact ⟨e, he, rfl, row, rfl, hminted, ⟨buf, hdrew, rfl⟩, hhash, hprefix,
      (request_of_minted he hminted).2⟩
  · intro e he row hrevokes
    obtain ⟨past, rest, htrace⟩ := List.append_of_mem he
    have hpermits := hconf.operation_spec (keyHandler_spec env) htrace
    obtain ⟨i, r, t, op, answer⟩ := e
    cases op with
    | revoke id =>
      match answer, hrevokes with
      | .ok (some found), hid =>
        obtain ⟨authorization, hreq, hbears⟩ := hpermits
        exact Or.inl ⟨authorization, hreq.trans (congrArg _ hid), hbears⟩
    | revokeAllByCustomer customerId =>
      match answer, hrevokes with
      | .ok n, hcustomer => exact Or.inr (Eq.trans hpermits (congrArg _ hcustomer))
    | _ => exact absurd hrevokes fun h => h

end Runs

end AgentExchange.ControlPlane
