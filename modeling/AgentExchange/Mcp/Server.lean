import AgentExchange.Library.TaskPool
import AgentExchange.Sdk.Clients

/-!
# The MCP server

`dispatch` serves the tool calls of a host over one identity file and one cached identity. Every
`await` is a place where other calls act, so the calls are programs over single operations: the
cache is a variable, a file is opened, which empties it, and then written. What the file system,
the random source and the control plane answer is chosen from outside.
-/
namespace AgentExchange.Mcp

open Library ControlPlane Sdk
open TypeScript (JsString js)
open Program (lift ensure okOr)

deriving instance DecidableEq for TypeScript.Identity

/-! ## Tool names -/

/-- `LEGACY_TO_V2_ALIASES`. -/
def legacyToV2Aliases : List (String × String) :=
  [("spize_whoami", "aex_whoami"), ("spize_init", "aex_init"), ("spize_send", "aex_send"),
    ("spize_inbox", "aex_inbox"), ("spize_download", "aex_download"), ("spize_ack", "aex_ack"),
    ("spize_send_via_tunnel", "aex_send_via_tunnel"),
    ("spize_request_ticket", "aex_request_ticket"),
    ("spize_fetch_from_tunnel", "aex_fetch_from_tunnel")]

def normalizeToolName (name : String) : String := (legacyToV2Aliases.lookup name).getD name

/-- The tools whose case reads the identity, decodes its input and asks the control plane. -/
inductive RemoteTool where
  | send
  | inbox
  | download
  | ack
  | sendViaTunnel
  | requestTicket
  | fetchFromTunnel

inductive Tool where
  | whoami
  | init
  | remote (tool : RemoteTool)

/-- The cases of the switch in `dispatch`. -/
def tools : List (String × Tool) :=
  [("aex_whoami", .whoami), ("aex_init", .init), ("aex_send", .remote .send),
    ("aex_inbox", .remote .inbox), ("aex_download", .remote .download), ("aex_ack", .remote .ack),
    ("aex_send_via_tunnel", .remote .sendViaTunnel),
    ("aex_request_ticket", .remote .requestTicket),
    ("aex_fetch_from_tunnel", .remote .fetchFromTunnel)]

/-! ## Inputs and errors -/

/-- What a schema finds wrong, with the path of the value. -/
inductive Issue where
  | required (path : String)
  | invalidType (path expected : String)
  | tooSmall (path : String) (minimum : ℕ)
  | tooBig (path : String) (maximum : ℕ)
  deriving DecidableEq

inductive ToolError where
  | zod (issues : List Issue)
  /-- an `Error` or an `IdentityError` -/
  | error (message : JsString)
  /-- an error of the file system, with its code -/
  | errno (code : String) (message : JsString)
  | http (statusCode : ℕ) (code : String) (message : JsString)
  | unknownTool (name : String)
  deriving DecidableEq

def ToolError.ofJsError (e : TypeScript.JsError) : ToolError := .error e.message

/-- A property of the arguments object. -/
def property (args : Entries) (name : String) : Option Document :=
  (args.findRev? fun e => e.1 = name).map Prod.snd

/-- `z.string().min(1).max(64)`. -/
def parseLabel (args : Entries) (path : String) : Except (List Issue) JsString :=
  match property args path with
  | none => .error [.required path]
  | some (.string s) =>
    if s.length < 1 then .error [.tooSmall path 1]
    else if s.length > 64 then .error [.tooBig path 64]
    else .ok s
  | some _ => .error [.invalidType path "string"]

/-- `z.boolean().optional().default(false)`. -/
def parseFlag (args : Entries) (path : String) : Except (List Issue) Bool :=
  match property args path with
  | none => .ok false
  | some (.bool b) => .ok b
  | some _ => .error [.invalidType path "boolean"]

structure SpizeInitInput where
  org : JsString
  name : JsString
  overwrite : Bool

def issues {α : Type} : Except (List Issue) α → List Issue
  | .ok _ => []
  | .error found => found

/-- The schema collects the issues of all its fields. -/
def SpizeInitInput.parse (args : Entries) : Except ToolError SpizeInitInput :=
  match parseLabel args "org", parseLabel args "name", parseFlag args "overwrite" with
  | .ok org, .ok name, .ok overwrite => .ok ⟨org, name, overwrite⟩
  | org, name, overwrite => .error (.zod (issues org ++ issues name ++ issues overwrite))

structure Env where
  crypto : Crypto
  baseUrl : String
  identityFile : String
  /-- the text of the identity file through `JSON.parse` and `Identity.fromJSON` -/
  fromText : Bytes → Except ToolError TypeScript.Identity
  /-- the schemas of the other tools -/
  accepts : RemoteTool → Entries → Except ToolError Unit

/-! ## Operations -/

inductive Op where
  | readCache
  /-- the answer, which no program looks at, is the value that was replaced -/
  | setCache (value : Option TypeScript.Identity)
  | readFile
  | randomPrivateKey
  | mkdir
  /-- the first half of `writeFile`: open for writing, and empty -/
  | openFile
  | writeFile (payload : Bytes)
  | register (identity : TypeScript.Identity)
  | remote (tool : RemoteTool) (identity : TypeScript.Identity)

abbrev Op.Answer : Op → Type
  | .readCache => Option TypeScript.Identity
  | .setCache _ => Option TypeScript.Identity
  | .readFile => Except ToolError Bytes
  | .randomPrivateKey => Bytes
  | .mkdir => Except ToolError Unit
  | .openFile => Except ToolError Unit
  | .writeFile _ => Except ToolError Unit
  | .register _ => Except ToolError JsString
  | .remote _ _ => Except ToolError Unit

abbrev effects : Signature := ⟨Op, Op.Answer⟩
abbrev Prog := Program effects ToolError
abbrev ask (op : Op) : Prog op.Answer := Program.call (S := effects) op

/-- The identity file and `cachedIdentity`. -/
structure State where
  file : Option Bytes
  cache : Option TypeScript.Identity := none

/-- What happens outside while an operation is performed: the error it meets, how many bytes a
failing write gets through, random bytes, and the time of a registration. -/
structure Outside where
  fault : Option ToolError := none
  written : ℕ := 0
  entropy : Bytes := []
  registeredAt : JsString := []

def Outside.answer {α : Type} (o : Outside) (value : α) : Except ToolError α :=
  match o.fault with
  | none => .ok value
  | some e => .error e

def enoent (path : String) : ToolError :=
  .errno "ENOENT" (js ("ENOENT: no such file or directory, open '" ++ path ++ "'"))

/-- Bytes written from the start of a file, over what another writer has left there. -/
def overlay (new old : Bytes) : Bytes := new ++ old.drop new.length

def exec (env : Env) (s : State) (op : Op) (o : Outside) : op.Answer × State :=
  match op with
  | .readCache => (s.cache, s)
  | .setCache value => (s.cache, { s with cache := value })
  | .readFile =>
    match s.file with
    | some content => (o.answer content, s)
    | none => (.error (enoent env.identityFile), s)
  | .randomPrivateKey => (o.entropy, s)
  | .mkdir => (o.answer (), s)
  | .openFile =>
    match o.fault with
    | none => (.ok (), { s with file := some [] })
    | some e => (.error e, s)
  | .writeFile payload =>
    match o.fault with
    | none => (.ok (), { s with file := some (overlay payload (s.file.getD [])) })
    | some e =>
      (.error e, { s with file := some (overlay (payload.take o.written) (s.file.getD [])) })
  | .register _ => (o.answer o.registeredAt, s)
  | .remote _ _ => (o.answer (), s)

/-! ## The identity store -/

/-- `IdentityStore.load`. -/
def load (env : Env) : Prog (Option TypeScript.Identity) := do
  let read ← ask .readFile
  match read with
  | .ok text => do
    let identity ← lift (env.fromText text)
    pure (some identity)
  | .error (.errno "ENOENT" _) => pure none
  | .error e => throw e

/-- `JSON.stringify(identity.toJSON(), null, 2)`. The strings are labels, hex digits and an agent
id, which are written as they are. -/
def stringify (crypto : Crypto) (identity : TypeScript.Identity) : JsString :=
  js "\x7b\n  \"version\": 1,\n  \"org\": \"" ++ identity.org ++
    js "\",\n  \"name\": \"" ++ identity.name ++
    js "\",\n  \"privateKeyHex\": \"" ++ TypeScript.toHex identity.privateKey ++
    js "\",\n  \"publicKeyHex\": \"" ++ identity.publicKeyHex ++
    js "\",\n  \"agentId\": \"" ++ identity.agentId crypto ++ js "\"\n\x7d"

/-- `IdentityStore.save`. -/
def save (env : Env) (identity : TypeScript.Identity) : Prog Unit := do
  let made ← ask .mkdir
  lift made
  let opened ← ask .openFile
  lift opened
  let written ← ask (.writeFile (TypeScript.textEncode (stringify env.crypto identity)))
  lift written

/-- `Identity.generate`. -/
def generate (env : Env) (org name : JsString) : Prog TypeScript.Identity := do
  lift ((TypeScript.validateLabel org "org").mapError .ofJsError)
  lift ((TypeScript.validateLabel name "name").mapError .ofJsError)
  let privateKey ← ask .randomPrivateKey
  pure ⟨org, name, privateKey, env.crypto.publicKey privateKey⟩

/-! ## Dispatch -/

structure WhoAmI where
  agentId : JsString
  org : JsString
  name : JsString
  fingerprint : JsString
  publicKeyHex : JsString
  deriving DecidableEq

inductive Result where
  | whoami (identity : Option WhoAmI) (identityFile : String)
  | initialised (agentId : JsString) (identityFile controlPlane : String) (registeredAt : JsString)
  /-- what another tool makes of the answer of the control plane -/
  | answered
  deriving DecidableEq

def loadIdentity (env : Env) : Prog (Option TypeScript.Identity) := do
  let cached ← ask .readCache
  match cached with
  | some identity => pure (some identity)
  | none => do
    let found ← load env
    let _ ← ask (.setCache found)
    pure found

def needIdentity : Prog TypeScript.Identity := do
  let cached ← ask .readCache
  okOr cached (.error (js ("No identity loaded. Call spize_init to create one or check " ++
    "SPIZE_IDENTITY_FILE.")))

def whoami (env : Env) : Prog Result := do
  let cached ← ask .readCache
  pure (.whoami (cached.map fun identity =>
    ⟨identity.agentId env.crypto, identity.org, identity.name, identity.fingerprint env.crypto,
      identity.publicKeyHex⟩) env.identityFile)

def alreadyExists (crypto : Crypto) (identity : TypeScript.Identity) : ToolError :=
  .error (js "An identity already exists (" ++ identity.agentId crypto ++
    js "). Pass overwrite=true to replace.")

/-- `if (cachedIdentity && !input.overwrite) throw`. -/
def checkFree (crypto : Crypto) (overwrite : Bool) :
    Option TypeScript.Identity → Except ToolError Unit
  | some identity => if overwrite then .ok () else .error (alreadyExists crypto identity)
  | none => .ok ()

/-- The case `aex_init`. -/
def init (env : Env) (args : Entries) : Prog Result := do
  let input ← lift (SpizeInitInput.parse args)
  let cached ← ask .readCache
  lift (checkFree env.crypto input.overwrite cached)
  let identity ← generate env input.org input.name
  save env identity
  let _ ← ask (.setCache (some identity))
  let registered ← ask (.register identity)
  let registeredAt ← lift registered
  pure (.initialised (identity.agentId env.crypto) env.identityFile env.baseUrl registeredAt)

/-- The other cases. Only the last asks the control plane and then the data plane. -/
def remote (env : Env) (tool : RemoteTool) (args : Entries) : Prog Result := do
  let identity ← needIdentity
  lift (env.accepts tool args)
  let answer ← ask (.remote tool identity)
  lift answer
  match tool with
  | .fetchFromTunnel => do
    let fetched ← ask (.remote tool identity)
    lift fetched
    pure .answered
  | _ => pure .answered

structure Request where
  name : String
  arguments : Entries := []

def Request.tool (r : Request) : Option Tool := tools.lookup (normalizeToolName r.name)

def dispatch (env : Env) (r : Request) : Prog Result := do
  let _ ← loadIdentity env
  match r.tool with
  | some .whoami => whoami env
  | some .init => init env r.arguments
  | some (.remote tool) => remote env tool r.arguments
  | none => throw (.unknownTool (normalizeToolName r.name))

/-! ## The running server -/

def semantics (env : Env) : Semantics effects State Request ToolError Result Outside Empty where
  handler := dispatch env
  exec := exec env
  environment t := t.elim

abbrev Label := Library.Label Request Outside Empty
abbrev World := Pool effects State Request ToolError Result
abbrev History := List (Event effects)

/-- The server after a run of labels, started over an identity file. -/
def run (env : Env) (file : Option Bytes) (labels : List Label) : World :=
  Pool.run (semantics env) { file := file } labels

end AgentExchange.Mcp
