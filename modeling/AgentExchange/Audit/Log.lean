import AgentExchange.Audit.Event
import AgentExchange.Core.Types
import AgentExchange.Library.HashChain

/-!
# The audit logs

`MemoryAuditLog` keeps its events; `FileAuditLog` keeps one JSON line per event and
caches the head and the number of events. Both verify by walking the chain from
the genesis head. Positions and lengths count events, far below `2^64`.

The JSON text of a stored line is written and read by `serde_json`, a parameter:
`LineCodec` holds the two directions.
-/
namespace AgentExchange.Audit

open Library

/-- The input event with the chain metadata the log attaches. -/
structure StoredEvent where
  position : ℕ
  eventId : String
  timestamp : OffsetDateTime
  prevHash : String
  thisHash : String
  event : Event

/-- The receipt of a successful append. -/
structure EventReceipt where
  eventId : String
  position : ℕ
  timestamp : OffsetDateTime
  chainHead : String
  deriving DecidableEq

def EventReceipt.ofStored (e : StoredEvent) : EventReceipt :=
  ⟨e.eventId, e.position, e.timestamp, e.thisHash⟩

/-- What an append reads besides its argument: the wall clock and a fresh identifier. -/
structure AppendCall where
  event : Event
  timestamp : OffsetDateTime
  eventId : String

variable (P : Primitives)

def StoredEvent.verifyHash (e : StoredEvent) : Except AuditError Unit := do
  let recomputed ← e.event.computeHash P e.timestamp e.prevHash
  if recomputed ≠ e.thisHash then
    throw (.hashMismatch e.position e.thisHash recomputed)

/-- The event an append stores after `prevHash`, at the given position. -/
def AppendCall.stored (call : AppendCall) (position : ℕ) (prevHash : String) :
    Except AuditError StoredEvent := do
  let thisHash ← call.event.computeHash P call.timestamp prevHash
  pure ⟨position, call.eventId, call.timestamp, prevHash, thisHash, call.event⟩

structure MemoryAuditLog where
  events : List StoredEvent := []

namespace MemoryAuditLog

def currentHead (log : MemoryAuditLog) : String :=
  match log.events.getLast? with
  | some e => e.thisHash
  | none => genesisHead

def len (log : MemoryAuditLog) : ℕ := log.events.length

def append (log : MemoryAuditLog) (call : AppendCall) :
    Except AuditError (EventReceipt × MemoryAuditLog) := do
  let stored ← call.stored P log.events.length log.currentHead
  pure (.ofStored stored, ⟨log.events ++ [stored]⟩)

/-- The loop of `verify_chain`, from position `i` on. -/
def verifyFrom (expectedPrev : String) (i : ℕ) : List StoredEvent → Except AuditError Unit
  | [] => pure ()
  | e :: es => do
    if e.prevHash ≠ expectedPrev then
      throw (.chainBroken i expectedPrev e.prevHash)
    e.verifyHash P
    verifyFrom e.thisHash (i + 1) es

def verifyChain (log : MemoryAuditLog) : Except AuditError Unit :=
  verifyFrom P genesisHead 0 log.events

/-- An append that fails leaves the log as it was. -/
def appendOrKeep (log : MemoryAuditLog) (call : AppendCall) : MemoryAuditLog :=
  match log.append P call with
  | .ok (_, log') => log'
  | .error _ => log

/-- The log after a run of appends. -/
def run (calls : List AppendCall) : MemoryAuditLog := calls.foldl (appendOrKeep P) {}

end MemoryAuditLog

/-- `serde_json` on the lines of the file. -/
structure LineCodec where
  toLine : StoredEvent → String
  fromLine : String → Except String StoredEvent

/-- `BufRead::lines`: the line feed ends a line and is dropped with a carriage return before
it; a last line without a line feed counts unless it is empty. `acc` is the line so far,
reversed. -/
def linesFrom (acc : List Char) : List Char → List (List Char)
  | [] => if acc = [] then [] else [acc.reverse]
  | c :: rest =>
    if c = '\n' then
      (match acc with
        | '\r' :: acc' => acc'.reverse
        | _ => acc.reverse) :: linesFrom [] rest
    else linesFrom (c :: acc) rest

def lines (text : String) : List String := (linesFrom [] text.toList).map String.ofList

/-- `line.trim().is_empty()`. -/
def isBlank (line : String) : Bool := line.toList.all isWhitespace

structure FileAuditLog where
  file : String := ""
  head : String := genesisHead
  len : ℕ := 0

namespace FileAuditLog

variable (codec : LineCodec)

def replayFrom (head : String) (len : ℕ) : List String → Except AuditError (String × ℕ)
  | [] => pure (head, len)
  | line :: rest => do
    if isBlank line then
      replayFrom head len rest
    else
      let stored ← (codec.fromLine line).mapError .serialization
      if stored.prevHash ≠ head then
        throw (.chainBroken len head stored.prevHash)
      stored.verifyHash P
      replayFrom stored.thisHash (len + 1) rest

def replay (file : String) : Except AuditError (String × ℕ) :=
  replayFrom P codec genesisHead 0 (lines file)

/-- `FileAuditLog::open` on the file's text (empty when it does not exist). -/
def openFile (file : String) : Except AuditError FileAuditLog := do
  let (head, len) ← replay P codec file
  pure ⟨file, head, len⟩

def append (log : FileAuditLog) (call : AppendCall) :
    Except AuditError (EventReceipt × FileAuditLog) := do
  let stored ← call.stored P log.len log.head
  pure (.ofStored stored,
    ⟨log.file ++ codec.toLine stored ++ "\n", stored.thisHash, log.len + 1⟩)

def currentHead (log : FileAuditLog) : String := log.head

def verifyChain (log : FileAuditLog) : Except AuditError Unit := do
  let (head, len) ← replay P codec log.file
  if head ≠ log.head ∨ len ≠ log.len then
    throw (.chainBroken len log.head head)

def appendOrKeep (log : FileAuditLog) (call : AppendCall) : FileAuditLog :=
  match log.append P codec call with
  | .ok (_, log') => log'
  | .error _ => log

def run (calls : List AppendCall) : FileAuditLog := calls.foldl (appendOrKeep P codec) {}

end FileAuditLog

end AgentExchange.Audit
