import AgentExchange.Core.Capability
import AgentExchange.Core.Types
import AgentExchange.Library.Machine

/-!
# The resolver chain

`ResolverChain::resolve` answers from a cache, and otherwise lets one caller per handle
fetch while the others wait on a `Notify` and then read the cache again. Any number
of calls run at once; each step of one is what it does between two points where
another thread can run. A call may be dropped wherever it awaits.

A record keeps, besides the source's fields, where it comes from: the step at which the
upstream request behind it was sent and the time at which that request was answered.
-/
namespace AgentExchange.Identity

open Library

/-- `Duration`s and `Instant`s in nanoseconds. -/
def hour : ℕ := 60 * 60 * 1000000000

def defaultTtl : ℕ := hour

def defaultCapacity : ℕ := 10000

inductive ResolverError where
  | noResolverForScheme (scheme : IdScheme) (handle : String)
  | invalidHandle (message : String)
  | underlying (handle source : String)
  | cacheIntegrityViolation (handle : String)
  deriving DecidableEq

structure ResolvedAgent where
  agentId : AgentId
  fingerprint : String
  capabilities : CapabilitySet
  etag : Option String
  deriving DecidableEq

inductive ResolveOutcome where
  | fresh (record : ResolvedAgent)
  | notModified

/-- The upstream request behind a record: the step at which it was sent, the time at which it
was answered. -/
structure Origin where
  sent : ℕ
  answered : ℕ
  deriving DecidableEq

structure CacheEntry where
  record : ResolvedAgent
  inserted : ℕ
  origin : Origin
  deriving DecidableEq

/-- How the chain was built: the schemes with a resolver, the TTL and the capacity. -/
structure ResolverChain where
  resolvers : IdScheme → Bool
  ttl : ℕ := defaultTtl
  capacity : ℕ := defaultCapacity

/-- The cache as a map; the list has no key twice. -/
abbrev Cache := List (AgentId × CacheEntry)

namespace Cache

def get (cache : Cache) (id : AgentId) : Option CacheEntry :=
  (cache.find? fun e => e.1 = id).map Prod.snd

def remove (cache : Cache) (ids : List AgentId) : Cache := cache.filter fun e => e.1 ∉ ids

def put (cache : Cache) (id : AgentId) (entry : CacheEntry) : Cache :=
  (id, entry) :: cache.remove [id]

/-- The keys a full cache gives up: the oldest first, among equals in the order in which the
map happens to be iterated. -/
def victims (cache : Cache) (capacity : ℕ) (order : List AgentId) : List AgentId :=
  let iterated := cache.mergeSort fun a b => order.idxOf a.1 ≤ order.idxOf b.1
  let byAge := iterated.mergeSort fun a b => a.2.inserted ≤ b.2.inserted
  (byAge.take (cache.length - capacity)).map Prod.fst

/-- `cache_insert`. -/
def insert (cache : Cache) (capacity : ℕ) (order : List AgentId) (id : AgentId)
    (entry : CacheEntry) : Cache :=
  let full := cache.put id entry
  if full.length > capacity then full.remove (full.victims capacity order) else full

end Cache

/-- A record with its origin, as a call returns it. -/
abbrev Answer := Except ResolverError (ResolvedAgent × Origin)

/-- Where a call of `resolve` stands. A `Notify` is named by a number. -/
inductive Phase where
  /-- before the cache fast path -/
  | start
  /-- before taking the lock on `inflight` -/
  | claiming
  /-- another task leads; `notified()` is not called yet -/
  | joined (notify : ℕ)
  /-- awaiting the notification -/
  | waiting (notify : ℕ)
  /-- notified, before reading the cache again -/
  | woken
  /-- the slot is claimed -/
  | leading (notify : ℕ)
  /-- the upstream request is sent, with the ETag of the entry that was cached -/
  | fetching (notify : ℕ) (etag : Option String) (cached : Option CacheEntry) (sent : ℕ)
  /-- a fresh record, before `cache_insert` -/
  | storing (notify : ℕ) (entry : CacheEntry)
  /-- not modified, before `cache_extend` -/
  | extending (notify : ℕ) (etag : Option String) (cached : Option CacheEntry) (origin : Origin)
  /-- before taking the slot back -/
  | releasing (notify : ℕ) (answer : Answer)
  /-- before `notify_waiters` -/
  | notifying (waiters : Option ℕ) (answer : Answer)
  | returned (answer : Answer) (time : ℕ)
  | dropped
  deriving DecidableEq

/-- The future awaits something at this point, so it can be dropped there. -/
def Phase.awaits : Phase → Bool
  | .joined _ | .notifying _ _ | .returned _ _ | .dropped => false
  | _ => true

structure ResolveCall where
  handle : AgentId
  began : ℕ
  phase : Phase
  deriving DecidableEq

structure InvalidateCall where
  handle : AgentId
  began : ℕ
  returned : Option ℕ := none
  deriving DecidableEq

/-- An entry extended after a 304, with what was cached when the request was sent and the ETag
that was sent. -/
structure Extension where
  etag : Option String
  cached : Option CacheEntry
  extended : CacheEntry

/-- The chain's shared state, its calls, the clock and the number of steps so far. -/
structure ResolverState where
  cache : Cache := []
  inflight : AgentId → Option ℕ := fun _ => none
  notifies : ℕ := 0
  calls : List ResolveCall := []
  invalidations : List InvalidateCall := []
  extensions : List Extension := []
  now : ℕ := 0
  step : ℕ := 0

inductive ResolverStep where
  | resolve (handle : String)
  | invalidate (handle : String)
  /-- call `i` goes on; `order` is the iteration order of the map if it has to evict -/
  | advance (i : ℕ) (order : List AgentId)
  /-- the upstream request of call `i` is answered -/
  | answer (i : ℕ) (outcome : Except ResolverError ResolveOutcome)
  | drop (i : ℕ)
  /-- invalidation `i` removes the entry and returns -/
  | remove (i : ℕ)
  | tick (duration : ℕ)

variable (chain : ResolverChain)

/-- `cache_get_fresh`. -/
def ResolverState.cacheGetFresh (s : ResolverState) (id : AgentId) : Option CacheEntry :=
  (s.cache.get id).filter fun e => s.now - e.inserted < chain.ttl

def ResolverState.setPhase (s : ResolverState) (i : ℕ) (call : ResolveCall) (phase : Phase) :
    ResolverState :=
  { s with calls := s.calls.set i { call with phase := phase } }

theorem ResolverState.getElem?_setPhase {s : ResolverState} {i j : ℕ} {call c : ResolveCall}
    {phase : Phase} (h : (s.setPhase i call phase).calls[j]? = some c) :
    j = i ∧ c = { call with phase := phase } ∨ j ≠ i ∧ s.calls[j]? = some c := by
  rw [ResolverState.setPhase, List.getElem?_set] at h
  split_ifs at h with hij hlt
  · exact .inl ⟨hij.symm, by rw [← Option.some.inj h]⟩
  · exact .inr ⟨fun hji => hij hji.symm, h⟩

theorem ResolverState.mem_of_mem_setPhase {s : ResolverState} {i : ℕ} {call c : ResolveCall}
    {phase : Phase} (h : c ∈ (s.setPhase i call phase).calls) :
    c = { call with phase := phase } ∨ c ∈ s.calls := by
  rcases List.mem_or_eq_of_mem_set h with h | h
  · exact .inr h
  · exact .inl h

/-- The other calls stay, and the call itself is there in its new phase. -/
theorem ResolverState.mem_setPhase {s : ResolverState} {i : ℕ} {call : ResolveCall}
    (phase : Phase) (hcall : s.calls[i]? = some call) :
    { call with phase := phase } ∈ (s.setPhase i call phase).calls ∧
      ∀ c ∈ s.calls, c = call ∨ c ∈ (s.setPhase i call phase).calls := by
  obtain ⟨hi, hget⟩ := List.getElem?_eq_some_iff.mp hcall
  constructor
  · exact List.mem_set hi _
  · intro c hc
    obtain ⟨j, hj, rfl⟩ := List.getElem_of_mem hc
    by_cases hij : i = j
    · subst hij
      exact .inl hget
    · refine .inr (List.mem_of_getElem? (i := j) ?_)
      rw [ResolverState.setPhase, List.getElem?_set_ne hij]
      exact List.getElem?_eq_getElem hj

/-- `notify_waiters`: the futures created before are ready, later ones are not. -/
def ResolveCall.wake (waiters : Option ℕ) (call : ResolveCall) : ResolveCall :=
  match call.phase with
  | .waiting n => if waiters = some n then { call with phase := .woken } else call
  | _ => call

def ResolverState.wakeAll (s : ResolverState) (waiters : Option ℕ) : ResolverState :=
  { s with calls := s.calls.map (ResolveCall.wake waiters) }

/-- What call `i` does next; nothing where it waits for someone else. -/
def ResolverState.advance (s : ResolverState) (i : ℕ) (order : List AgentId) (call : ResolveCall) :
    ResolverState :=
  match call.phase with
  | .start =>
    match s.cacheGetFresh chain call.handle with
    | some e => s.setPhase i call (.returned (.ok (e.record, e.origin)) s.now)
    | none => s.setPhase i call .claiming
  | .claiming =>
    match s.inflight call.handle with
    | some n => s.setPhase i call (.joined n)
    | none =>
      { s.setPhase i call (.leading s.notifies) with
        inflight := Function.update s.inflight call.handle (some s.notifies)
        notifies := s.notifies + 1 }
  | .joined n => s.setPhase i call (.waiting n)
  | .waiting _ => s
  | .woken =>
    match s.cache.get call.handle with
    | some e => s.setPhase i call (.returned (.ok (e.record, e.origin)) s.now)
    | none => s.setPhase i call
        (.returned (.error (.underlying call.handle.asStr "inflight resolver failed")) s.now)
  | .leading n =>
    if chain.resolvers call.handle.scheme then
      let cached := s.cache.get call.handle
      s.setPhase i call (.fetching n (cached.bind fun e => e.record.etag) cached s.step)
    else
      s.setPhase i call
        (.releasing n (.error (.noResolverForScheme call.handle.scheme call.handle.asStr)))
  | .fetching _ _ _ _ => s
  | .storing n entry =>
    { s.setPhase i call (.releasing n (.ok (entry.record, entry.origin))) with
      cache := s.cache.insert chain.capacity order call.handle entry }
  | .extending n etag cached origin =>
    match s.cache.get call.handle with
    | some e =>
      { s.setPhase i call (.releasing n (.ok (e.record, origin))) with
        cache := s.cache.put call.handle { e with inserted := s.now, origin := origin }
        extensions := s.extensions ++ [⟨etag, cached, e⟩] }
    | none =>
      s.setPhase i call (.releasing n
        (.error (.underlying call.handle.asStr "304 returned with no cached entry")))
  | .releasing _ answer =>
    { s.setPhase i call (.notifying (s.inflight call.handle) answer) with
      inflight := Function.update s.inflight call.handle none }
  | .notifying waiters answer =>
    (s.wakeAll waiters).setPhase i call (.returned answer s.now)
  | .returned _ _ => s
  | .dropped => s

/-- The upstream answer of a request that was sent at step `sent`. -/
def ResolverState.answered (s : ResolverState) (n : ℕ) (etag : Option String)
    (cached : Option CacheEntry) (sent : ℕ) : Except ResolverError ResolveOutcome → Phase
  | .ok (.fresh record) => .storing n ⟨record, s.now, ⟨sent, s.now⟩⟩
  | .ok .notModified => .extending n etag cached ⟨sent, s.now⟩
  | .error e => .releasing n (.error e)

def ResolverState.act (s : ResolverState) : ResolverStep → ResolverState
  | .resolve handle =>
    match AgentId.new handle with
    | .ok id => { s with calls := s.calls ++ [⟨id, s.step, .start⟩] }
    | .error e =>
      { s with calls := s.calls ++
          [⟨⟨handle⟩, s.step, .returned (.error (.invalidHandle e.display)) s.now⟩] }
  | .invalidate handle =>
    match AgentId.new handle with
    | .ok id => { s with invalidations := s.invalidations ++ [⟨id, s.step, none⟩] }
    | .error _ => s
  | .advance i order =>
    match s.calls[i]? with
    | some call => s.advance chain i order call
    | none => s
  | .answer i outcome =>
    match s.calls[i]? with
    | some ⟨handle, began, .fetching n etag cached sent⟩ =>
      s.setPhase i ⟨handle, began, .fetching n etag cached sent⟩
        (s.answered n etag cached sent outcome)
    | _ => s
  | .drop i =>
    match s.calls[i]? with
    | some call => if call.phase.awaits then s.setPhase i call .dropped else s
    | none => s
  | .remove i =>
    match s.invalidations[i]? with
    | some ⟨handle, began, none⟩ =>
      { s with
        cache := s.cache.remove [handle]
        invalidations := s.invalidations.set i ⟨handle, began, some s.step⟩ }
    | _ => s
  | .tick duration => { s with now := s.now + duration }

/-- One step, counted. -/
def ResolverState.next (s : ResolverState) (l : ResolverStep) : ResolverState :=
  { s.act chain l with step := s.step + 1 }

/-! ### What a step can do -/

/-- What a call does on its own: its phase before and after, and the shared state it leaves. -/
inductive Moves (s : ResolverState) (order : List AgentId) (handle : AgentId) :
    Phase → Phase → ResolverState → Prop
  | hit {e : CacheEntry} (h : s.cacheGetFresh chain handle = some e) :
      Moves s order handle .start (.returned (.ok (e.record, e.origin)) s.now) s
  | miss : Moves s order handle .start .claiming s
  | join {n : ℕ} (h : s.inflight handle = some n) : Moves s order handle .claiming (.joined n) s
  | claim (h : s.inflight handle = none) :
      Moves s order handle .claiming (.leading s.notifies)
        { s with
          inflight := Function.update s.inflight handle (some s.notifies)
          notifies := s.notifies + 1 }
  | register (n : ℕ) : Moves s order handle (.joined n) (.waiting n) s
  | reread {e : CacheEntry} (h : s.cache.get handle = some e) :
      Moves s order handle .woken (.returned (.ok (e.record, e.origin)) s.now) s
  | gone (e : ResolverError) : Moves s order handle .woken (.returned (.error e) s.now) s
  | send (n : ℕ) :
      Moves s order handle (.leading n)
        (.fetching n ((s.cache.get handle).bind fun e => e.record.etag) (s.cache.get handle) s.step)
        s
  | unresolved (n : ℕ) (e : ResolverError) :
      Moves s order handle (.leading n) (.releasing n (.error e)) s
  | store (n : ℕ) (entry : CacheEntry) :
      Moves s order handle (.storing n entry) (.releasing n (.ok (entry.record, entry.origin)))
        { s with cache := s.cache.insert chain.capacity order handle entry }
  | extend {e : CacheEntry} (n : ℕ) (etag : Option String) (cached : Option CacheEntry)
      (origin : Origin) (h : s.cache.get handle = some e) :
      Moves s order handle (.extending n etag cached origin) (.releasing n (.ok (e.record, origin)))
        { s with
          cache := s.cache.put handle { e with inserted := s.now, origin := origin }
          extensions := s.extensions ++ [⟨etag, cached, e⟩] }
  | vanished (n : ℕ) (etag : Option String) (cached : Option CacheEntry) (origin : Origin)
      (e : ResolverError) :
      Moves s order handle (.extending n etag cached origin) (.releasing n (.error e)) s
  | release (n : ℕ) (answer : Answer) :
      Moves s order handle (.releasing n answer) (.notifying (s.inflight handle) answer)
        { s with inflight := Function.update s.inflight handle none }

/-- What a step does to the state, its counter apart. -/
inductive Acts (s : ResolverState) : ResolverStep → ResolverState → Prop
  | idle (l : ResolverStep) : Acts s l s
  | began (handle : String) {call : ResolveCall} (hbegan : call.began = s.step)
      (hphase : call.phase = .start ∨ ∃ e, call.phase = .returned (.error e) s.now) :
      Acts s (.resolve handle) { s with calls := s.calls ++ [call] }
  | invalidating (handle : String) (id : AgentId) :
      Acts s (.invalidate handle)
        { s with invalidations := s.invalidations ++ [⟨id, s.step, none⟩] }
  | moved {i : ℕ} {order : List AgentId} {call : ResolveCall} {phase : Phase}
      {shared : ResolverState} (hcall : s.calls[i]? = some call)
      (hmove : Moves chain s order call.handle call.phase phase shared) :
      Acts s (.advance i order) (shared.setPhase i call phase)
  | notified {i : ℕ} {order : List AgentId} {call : ResolveCall} {waiters : Option ℕ}
      {answer : Answer} (hcall : s.calls[i]? = some call)
      (hphase : call.phase = .notifying waiters answer) :
      Acts s (.advance i order)
        ((s.wakeAll waiters).setPhase i call (.returned answer s.now))
  | answered {i n sent : ℕ} {call : ResolveCall} {etag : Option String}
      {cached : Option CacheEntry} (outcome : Except ResolverError ResolveOutcome)
      (hcall : s.calls[i]? = some call) (hphase : call.phase = .fetching n etag cached sent) :
      Acts s (.answer i outcome) (s.setPhase i call (s.answered n etag cached sent outcome))
  | dropped {i : ℕ} {call : ResolveCall} (hcall : s.calls[i]? = some call)
      (hawaits : call.phase.awaits = true) : Acts s (.drop i) (s.setPhase i call .dropped)
  | removed {i began : ℕ} {handle : AgentId}
      (hinv : s.invalidations[i]? = some ⟨handle, began, none⟩) :
      Acts s (.remove i)
        { s with
          cache := s.cache.remove [handle]
          invalidations := s.invalidations.set i ⟨handle, began, some s.step⟩ }
  | ticked (duration : ℕ) : Acts s (.tick duration) { s with now := s.now + duration }

theorem ResolverState.acts_advance (s : ResolverState) {i : ℕ} (order : List AgentId)
    {call : ResolveCall} (hcall : s.calls[i]? = some call) :
    Acts chain s (.advance i order) (s.advance chain i order call) := by
  have moved : ∀ phase shared, Moves chain s order call.handle call.phase phase shared →
      Acts chain s (.advance i order) (shared.setPhase i call phase) := fun _ _ => .moved hcall
  rw [ResolverState.advance]
  cases hphase : call.phase with
  | start =>
    dsimp only
    cases hfresh : s.cacheGetFresh chain call.handle with
    | some e => exact moved _ _ (hphase ▸ .hit hfresh)
    | none => exact moved _ _ (hphase ▸ .miss)
  | claiming =>
    dsimp only
    cases hslot : s.inflight call.handle with
    | some n => exact moved _ _ (hphase ▸ .join hslot)
    | none => exact moved _ _ (hphase ▸ Moves.claim hslot)
  | joined n => exact moved _ _ (hphase ▸ .register n)
  | waiting n => exact .idle _
  | woken =>
    dsimp only
    cases hget : s.cache.get call.handle with
    | some e => exact moved _ _ (hphase ▸ .reread hget)
    | none => exact moved _ _ (hphase ▸ .gone _)
  | leading n =>
    dsimp only
    split_ifs
    · exact moved _ _ (hphase ▸ .send n)
    · exact moved _ _ (hphase ▸ .unresolved n _)
  | fetching n etag cached sent => exact .idle _
  | storing n entry => exact moved _ _ (hphase ▸ Moves.store n entry)
  | extending n etag cached origin =>
    dsimp only
    cases hget : s.cache.get call.handle with
    | some e => exact moved _ _ (hphase ▸ Moves.extend n etag cached origin hget)
    | none => exact moved _ _ (hphase ▸ .vanished n etag cached origin _)
  | releasing n answer => exact moved _ _ (hphase ▸ Moves.release n answer)
  | notifying waiters answer => exact .notified hcall hphase
  | returned answer time => exact .idle _
  | dropped => exact .idle _

/-- Every step does one of these. -/
theorem ResolverState.acts (s : ResolverState) (l : ResolverStep) :
    Acts chain s l (s.act chain l) := by
  cases l with
  | resolve handle =>
    rw [ResolverState.act]
    split
    · exact .began handle rfl (.inl rfl)
    · exact .began handle rfl (.inr ⟨_, rfl⟩)
  | invalidate handle =>
    rw [ResolverState.act]
    split
    · exact .invalidating handle _
    · exact .idle _
  | advance i order =>
    rw [ResolverState.act]
    split
    · rename_i call hcall
      exact s.acts_advance chain order hcall
    · exact .idle _
  | answer i outcome =>
    rw [ResolverState.act]
    split
    · rename_i handle began n etag cached sent hcall
      exact .answered outcome hcall rfl
    · exact .idle _
  | drop i =>
    rw [ResolverState.act]
    split
    · rename_i call hcall
      split_ifs with hawaits
      · exact .dropped hcall hawaits
      · exact .idle _
    · exact .idle _
  | remove i =>
    rw [ResolverState.act]
    split
    · rename_i handle began hinv
      exact .removed hinv
    · exact .idle _
  | tick duration => exact .ticked duration

end AgentExchange.Identity
