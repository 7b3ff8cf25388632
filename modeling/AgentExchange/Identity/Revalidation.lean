import AgentExchange.Identity.SingleFlight

/-!
# What a leader knows about the cache

While a call leads for a handle nobody else puts an entry there, so the entry it finds is
the one whose ETag it sent, or none. Every record comes from a request that was sent
before it, and a leader's record from a request of its own.
-/
namespace AgentExchange.Identity

open Library

namespace Cache

variable {cache : Cache} {id id' : AgentId} {entry e : CacheEntry}

theorem get_remove {ids : List AgentId} (h : (cache.remove ids).get id = some e) :
    id ∉ ids ∧ cache.get id = some e := by
  induction cache with
  | nil => cases h
  | cons x cache ih =>
    have hget : ∀ c : Cache, Cache.get (x :: c) id = if x.1 = id then some x.2 else c.get id := by
      intro c
      rw [Cache.get, List.find?_cons]
      by_cases hx : x.1 = id <;> simp [hx, Cache.get]
    rw [hget]
    by_cases hkept : x.1 ∈ ids
    · rw [Cache.remove, List.filter_cons_of_neg (by simpa using hkept)] at h
      obtain ⟨hid, hrest⟩ := ih h
      have hx : x.1 ≠ id := fun hx => hid (hx ▸ hkept)
      rw [if_neg hx]
      exact ⟨hid, hrest⟩
    · rw [Cache.remove, List.filter_cons_of_pos (by simpa using hkept), ← Cache.remove, hget] at h
      split_ifs at h ⊢ with hx
      · exact ⟨hx ▸ hkept, h⟩
      · exact ih h

theorem get_put : (cache.put id entry).get id' = some e →
    id' = id ∧ e = entry ∨ id' ≠ id ∧ cache.get id' = some e := by
  intro h
  rw [Cache.put, Cache.get, List.find?_cons] at h
  by_cases hid : id' = id
  · left
    simp only [hid, decide_true, Option.map_some, Option.some.injEq] at h
    exact ⟨hid, h.symm⟩
  · right
    simp only [Ne.symm hid, decide_false] at h
    exact ⟨hid, (get_remove h).2⟩

/-- `cache_insert` puts the entry in and may evict others, or the entry itself. -/
theorem get_insert {capacity : ℕ} {order : List AgentId}
    (h : (cache.insert capacity order id entry).get id' = some e) :
    id' = id ∧ e = entry ∨ id' ≠ id ∧ cache.get id' = some e := by
  rw [Cache.insert] at h
  split_ifs at h
  · exact get_put (get_remove h).2
  · exact get_put h

end Cache

variable {chain : ResolverChain} {s t : ResolverState}

/-! ### Where entries, answers and extensions come from -/

/-- What a call puts into the cache is its fresh record or the entry it extends. -/
theorem Moves.cached {order : List AgentId} {handle id : AgentId} {before after : Phase}
    {shared : ResolverState} {e : CacheEntry} (h : Moves chain s order handle before after shared)
    (he : shared.cache.get id = some e) :
    s.cache.get id = some e ∨ id = handle ∧ ((∃ n, before = .storing n e) ∨
      ∃ n etag cached origin e', before = .extending n etag cached origin ∧
        s.cache.get handle = some e' ∧ e = { e' with inserted := s.now, origin := origin }) := by
  cases h with
  | store n entry =>
    rcases Cache.get_insert he with ⟨hid, rfl⟩ | ⟨-, he⟩
    · exact .inr ⟨hid, .inl ⟨n, rfl⟩⟩
    · exact .inl he
  | extend n etag cached origin hget =>
    rcases Cache.get_put he with ⟨hid, rfl⟩ | ⟨-, he⟩
    · exact .inr ⟨hid, .inr ⟨n, etag, cached, origin, _, rfl, hget, rfl⟩⟩
    · exact .inl he
  | _ => exact .inl he

theorem Acts.cached {l : ResolverStep} {id : AgentId} {e : CacheEntry} (h : Acts chain s l t)
    (he : t.cache.get id = some e) :
    s.cache.get id = some e ∨ ∃ i order call, l = .advance i order ∧ s.calls[i]? = some call ∧
      id = call.handle ∧ ((∃ n, call.phase = .storing n e) ∨
        ∃ n etag cached origin e', call.phase = .extending n etag cached origin ∧
          s.cache.get call.handle = some e' ∧
          e = { e' with inserted := s.now, origin := origin }) := by
  cases h with
  | moved hcall hmove =>
    rcases hmove.cached he with he | hnew
    · exact .inl he
    · exact .inr ⟨_, _, _, rfl, hcall, hnew⟩
  | removed hinv => exact .inl (Cache.get_remove he).2
  | _ => exact .inl he

/-- A call that answers on its own answers with the cached entry: a fresh one, or any one after
having waited. -/
theorem Moves.returns {order : List AgentId} {handle : AgentId} {before : Phase}
    {shared : ResolverState} {record : ResolvedAgent} {origin : Origin} {time : ℕ}
    (h : Moves chain s order handle before (.returned (.ok (record, origin)) time) shared) :
    time = s.now ∧ ∃ e, s.cache.get handle = some e ∧ origin = e.origin ∧
      (before = .start ∧ s.now - e.inserted < chain.ttl ∨ before = .woken) := by
  cases h with
  | hit hfresh =>
    rw [ResolverState.cacheGetFresh, Option.filter_eq_some_iff] at hfresh
    exact ⟨rfl, _, hfresh.1, rfl, .inl ⟨rfl, by simpa using hfresh.2⟩⟩
  | reread hget => exact ⟨rfl, _, hget, rfl, .inr rfl⟩

/-- A new answer comes from the cache or from the call's own request. -/
theorem Acts.returns {l : ResolverStep} {c : ResolveCall} {record : ResolvedAgent}
    {origin : Origin} {time : ℕ} (h : Acts chain s l t) (hc : c ∈ t.calls)
    (hphase : c.phase = .returned (.ok (record, origin)) time) :
    c ∈ s.calls ∨ time = s.now ∧ ∃ i order call, l = .advance i order ∧
      s.calls[i]? = some call ∧ c.handle = call.handle ∧ c.began = call.began ∧
      ((∃ e, s.cache.get call.handle = some e ∧ origin = e.origin ∧
          (call.phase = .start ∧ s.now - e.inserted < chain.ttl ∨ call.phase = .woken)) ∨
        ∃ waiters, call.phase = .notifying waiters (.ok (record, origin))) := by
  cases h with
  | began handle hbegan hstart =>
    rcases List.mem_append.mp hc with hc | hc
    · exact .inl hc
    · rw [List.mem_singleton.mp hc] at hphase
      rcases hstart with hstart | ⟨e, hstart⟩ <;> rw [hstart] at hphase <;> cases hphase
  | moved hcall hmove =>
    rcases ResolverState.mem_of_mem_setPhase hc with rfl | hc
    · cases hphase
      obtain ⟨htime, hread⟩ := hmove.returns
      exact .inr ⟨htime, _, _, _, rfl, hcall, rfl, rfl, .inl hread⟩
    · exact .inl (hmove.slots.1 ▸ hc)
  | notified hcall hnotifying =>
    rename_i waiters answer
    rcases ResolverState.mem_of_mem_setPhase hc with rfl | hc
    · cases hphase
      exact .inr ⟨rfl, _, _, _, rfl, hcall, rfl, rfl, .inr ⟨_, hnotifying⟩⟩
    · obtain ⟨c', hc', rfl⟩ := List.mem_map.mp hc
      rcases c'.wake_phase waiters with ⟨n, -, -, hwoken⟩ | ⟨hsame, -⟩
      · rw [hwoken] at hphase
        cases hphase
      · rw [hsame]
        exact .inl hc'
  | answered outcome hcall hfetching =>
    rcases ResolverState.mem_of_mem_setPhase hc with rfl | hc
    · rcases outcome with e | record | _ <;> cases hphase
    · exact .inl hc
  | dropped hcall hawaits =>
    rcases ResolverState.mem_of_mem_setPhase hc with rfl | hc
    · cases hphase
    · exact .inl hc
  | _ => exact .inl hc

theorem Moves.invalidations_eq {order : List AgentId} {handle : AgentId} {before after : Phase}
    {shared : ResolverState} (h : Moves chain s order handle before after shared) :
    shared.invalidations = s.invalidations := by
  cases h <;> rfl

/-- An invalidation is called, or removes the entry and returns. -/
theorem Acts.invalidations {l : ResolverStep} {inv : InvalidateCall} (h : Acts chain s l t)
    (hinv : inv ∈ t.invalidations) :
    inv ∈ s.invalidations ∨ (inv.began = s.step ∧ inv.returned = none) ∨
      ⟨inv.handle, inv.began, none⟩ ∈ s.invalidations ∧ inv.returned = some s.step ∧
        t.cache = s.cache.remove [inv.handle] ∧ t.calls = s.calls := by
  cases h with
  | invalidating handle id =>
    rcases List.mem_append.mp hinv with hinv | hinv
    · exact .inl hinv
    · rw [List.mem_singleton.mp hinv]
      exact .inr (.inl ⟨rfl, rfl⟩)
  | moved hcall hmove => exact .inl (hmove.invalidations_eq ▸ hinv)
  | removed hbefore =>
    rcases List.mem_or_eq_of_mem_set hinv with hinv | rfl
    · exact .inl hinv
    · exact .inr (.inr ⟨List.mem_of_getElem? hbefore, rfl, rfl, rfl⟩)
  | _ => exact .inl hinv

/-- An extension is of the entry that is cached. -/
theorem Acts.extensions {l : ResolverStep} {x : Extension} (h : Acts chain s l t)
    (hx : x ∈ t.extensions) :
    x ∈ s.extensions ∨ ∃ i order call n origin, l = .advance i order ∧ s.calls[i]? = some call ∧
      call.phase = .extending n x.etag x.cached origin ∧
      s.cache.get call.handle = some x.extended := by
  cases h with
  | moved hcall hmove =>
    rename_i i order call phase shared
    generalize hbefore : call.phase = before at hmove
    cases hmove with
    | extend n etag cached origin hget =>
      rcases List.mem_append.mp hx with hx | hx
      · exact .inl hx
      · rw [List.mem_singleton.mp hx]
        exact .inr ⟨_, _, _, n, origin, rfl, hcall, hbefore, hget⟩
    | _ => exact .inl hx
  | _ => exact .inl hx

/-! ### Leaders -/

/-- A request for the handle with this ETag, sent when this entry was cached. -/
structure ResolverState.Revalidates (s : ResolverState) (handle : AgentId) (etag : Option String)
    (cached : Option CacheEntry) (sent : ℕ) : Prop where
  sent_lt : sent < s.step
  etag_eq : etag = cached.bind fun e => e.record.etag
  older : ∀ e, cached = some e → e.origin.sent < sent
  same : ∀ e, s.cache.get handle = some e → cached = some e

/-- What holds of a call by the request it has made. -/
def ResolveCall.Grounded (s : ResolverState) (call : ResolveCall) : Prop :=
  match call.phase with
  | .fetching _ etag cached sent =>
    call.began ≤ sent ∧ s.Revalidates call.handle etag cached sent
  | .extending _ etag cached origin =>
    call.began ≤ origin.sent ∧ s.Revalidates call.handle etag cached origin.sent
  | .storing _ entry =>
    call.began ≤ entry.origin.sent ∧ entry.origin.sent < s.step ∧
      entry.inserted = entry.origin.answered
  | .releasing _ answer | .notifying _ answer =>
    ∀ record origin, answer = .ok (record, origin) → call.began ≤ origin.sent
  | _ => True

structure ResolverState.Grounded (s : ResolverState) : Prop where
  exclusive : s.Exclusive
  began : ∀ call ∈ s.calls, call.began < s.step
  entries : ∀ id e, s.cache.get id = some e → e.origin.sent < s.step
  calls : ∀ call ∈ s.calls, call.Grounded s

/-- Time passes, and the cache loses entries at most where the call leads. -/
theorem ResolveCall.Grounded.frame {call : ResolveCall} (h : call.Grounded s)
    (hstep : s.step ≤ t.step)
    (hcache : call.phase.slot ≠ none → ∀ e, t.cache.get call.handle = some e →
      s.cache.get call.handle = some e) : call.Grounded t := by
  rw [ResolveCall.Grounded] at h ⊢
  have keep : ∀ {etag cached sent}, call.phase.slot ≠ none →
      s.Revalidates call.handle etag cached sent → t.Revalidates call.handle etag cached sent :=
    fun hslot hr =>
      ⟨hr.sent_lt.trans_le hstep, hr.etag_eq, hr.older, fun e he => hr.same e (hcache hslot e he)⟩
  cases hphase : call.phase with
  | fetching n etag cached sent =>
    rw [hphase] at h
    exact ⟨h.1, keep (by rw [hphase]; exact Option.some_ne_none n) h.2⟩
  | extending n etag cached origin =>
    rw [hphase] at h
    exact ⟨h.1, keep (by rw [hphase]; exact Option.some_ne_none n) h.2⟩
  | storing n entry =>
    rw [hphase] at h
    exact ⟨h.1, h.2.1.trans_le hstep, h.2.2⟩
  | releasing n answer =>
    rw [hphase] at h
    exact h
  | notifying waiters answer =>
    rw [hphase] at h
    exact h
  | _ => trivial

theorem ResolveCall.Grounded.wake {call : ResolveCall} (h : call.Grounded s)
    (waiters : Option ℕ) : (call.wake waiters).Grounded s := by
  rcases call.wake_phase waiters with ⟨n, -, -, hwoken⟩ | ⟨hsame, -⟩
  · rw [ResolveCall.Grounded, hwoken]
    trivial
  · rwa [hsame]

namespace ResolverState.Grounded

/-- The entry that a leader finds is older than its request. -/
theorem extended_older (h : s.Grounded) {call : ResolveCall} (hcall : call ∈ s.calls) {n : ℕ}
    {etag : Option String} {cached : Option CacheEntry} {origin : Origin} {e : CacheEntry}
    (hphase : call.phase = .extending n etag cached origin)
    (hget : s.cache.get call.handle = some e) : e.origin.sent < origin.sent := by
  have hg := h.calls call hcall
  rw [ResolveCall.Grounded, hphase] at hg
  exact hg.2.older e (hg.2.same e hget)

/-- The step of one call: it is grounded in its new phase, and the cache changes at its own
handle only, if it leads. -/
theorem setPhase (h : s.Grounded) {u : ResolverState} {i : ℕ} {call : ResolveCall} {phase : Phase}
    (hcall : s.calls[i]? = some call) (hcalls : u.calls = s.calls.set i { call with phase := phase })
    (hexclusive : u.Exclusive) (hstep : u.step = s.step + 1)
    (hcache : ∀ id e, u.cache.get id = some e → s.cache.get id = some e ∨
      id = call.handle ∧ call.phase.slot ≠ none ∧ e.origin.sent < s.step)
    (hnew : ResolveCall.Grounded u { call with phase := phase }) : u.Grounded := by
  refine ⟨hexclusive, ?_, ?_, ?_⟩
  · intro c hc
    rw [hcalls] at hc
    rw [hstep]
    rcases List.mem_or_eq_of_mem_set hc with hc | rfl
    · exact (h.began c hc).trans (Nat.lt_succ_self _)
    · exact (h.began call (List.mem_of_getElem? hcall)).trans (Nat.lt_succ_self _)
  · intro id e he
    rw [hstep]
    rcases hcache id e he with he | ⟨-, -, he⟩
    · exact (h.entries id e he).trans (Nat.lt_succ_self _)
    · exact he.trans (Nat.lt_succ_self _)
  · intro c hc
    obtain ⟨j, hj⟩ := List.mem_iff_getElem?.mp hc
    have hset : (s.setPhase i call phase).calls[j]? = some c := by rw [← hj, hcalls]; rfl
    rcases ResolverState.getElem?_setPhase hset with ⟨-, rfl⟩ | ⟨hji, hj⟩
    · exact hnew
    · refine (h.calls c (List.mem_of_getElem? hj)).frame (by omega) fun hslot e he => ?_
      rcases hcache c.handle e he with he | ⟨hhandle, hleads, -⟩
      · exact he
      · exact absurd (h.exclusive.single j i c call hj hcall hhandle hslot hleads) hji

/-- Steps that start or end no phase and put nothing into the cache. -/
theorem mono (h : s.Grounded) {u : ResolverState} (hcalls : u.calls = s.calls)
    (hexclusive : u.Exclusive) (hstep : u.step = s.step + 1)
    (hcache : ∀ id e, u.cache.get id = some e → s.cache.get id = some e) : u.Grounded := by
  refine ⟨hexclusive, ?_, ?_, ?_⟩
  · intro c hc
    have := h.began c (hcalls ▸ hc)
    omega
  · intro id e he
    have := h.entries id e (hcache id e he)
    omega
  · intro c hc
    exact (h.calls c (hcalls ▸ hc)).frame (by omega) fun _ e he => hcache _ e he

theorem moved (h : s.Grounded) {i : ℕ} {order : List AgentId} {call : ResolveCall} {phase : Phase}
    {shared : ResolverState} (hcall : s.calls[i]? = some call)
    (hmove : Moves chain s order call.handle call.phase phase shared)
    (hexclusive : ResolverState.Exclusive { shared.setPhase i call phase with step := s.step + 1 }) :
    ResolverState.Grounded { shared.setPhase i call phase with step := s.step + 1 } := by
  have hcalls : shared.calls = s.calls := hmove.slots.1
  have hg := h.calls call (List.mem_of_getElem? hcall)
  have hbegan := h.began call (List.mem_of_getElem? hcall)
  refine h.setPhase hcall (by rw [ResolverState.setPhase, hcalls]) hexclusive rfl ?_ ?_
  · intro id e he
    rw [ResolveCall.Grounded] at hg
    rcases hmove.cached he with he | ⟨hid, ⟨n, hphase⟩ |
      ⟨n, etag, cached, origin, e', hphase, -, rfl⟩⟩
    · exact .inl he
    · rw [hphase] at hg
      exact .inr ⟨hid, by rw [hphase]; exact Option.some_ne_none n, hg.2.1⟩
    · rw [hphase] at hg
      exact .inr ⟨hid, by rw [hphase]; exact Option.some_ne_none n, hg.2.sent_lt⟩
  · rw [ResolveCall.Grounded] at hg ⊢
    generalize call.phase = before at hmove hg
    cases hmove with
    | send n =>
      refine ⟨hbegan.le, Nat.lt_succ_self _, rfl, ?_, fun e he => he⟩
      intro e he
      exact h.entries _ e he
    | unresolved n e =>
      intro record origin hanswer
      cases hanswer
    | store n entry =>
      intro record origin hanswer
      cases hanswer
      exact hg.1
    | extend n etag cached origin hget =>
      intro record origin hanswer
      cases hanswer
      exact hg.1
    | vanished n etag cached origin e =>
      intro record origin hanswer
      cases hanswer
    | release n answer => exact hg
    | _ => trivial

theorem answered (h : s.Grounded) {i n sent : ℕ} {call : ResolveCall} {etag : Option String}
    {cached : Option CacheEntry} {outcome : Except ResolverError ResolveOutcome}
    (hcall : s.calls[i]? = some call) (hphase : call.phase = .fetching n etag cached sent)
    {u : ResolverState} (hu : u = s.setPhase i call (s.answered n etag cached sent outcome))
    (hexclusive : ResolverState.Exclusive { u with step := s.step + 1 }) :
    ResolverState.Grounded { u with step := s.step + 1 } := by
  subst hu
  have hg := h.calls call (List.mem_of_getElem? hcall)
  rw [ResolveCall.Grounded, hphase] at hg
  obtain ⟨hbegan, hsent, hetag, holder, hsame⟩ := hg
  refine h.setPhase hcall rfl hexclusive rfl (fun id e he => .inl he) ?_
  rcases outcome with e | record | _
  · intro record origin hanswer
    cases hanswer
  · exact ⟨hbegan, hsent.trans (Nat.lt_succ_self _), rfl⟩
  · exact ⟨hbegan, hsent.trans (Nat.lt_succ_self _), hetag, holder, hsame⟩

theorem notified (h : s.Grounded) {i : ℕ} {call : ResolveCall} {waiters : Option ℕ}
    {answer : Answer} (hcall : s.calls[i]? = some call)
    (hphase : call.phase = .notifying waiters answer) {u : ResolverState}
    (hu : u = (s.wakeAll waiters).setPhase i call (.returned answer s.now))
    (hexclusive : ResolverState.Exclusive { u with step := s.step + 1 }) :
    ResolverState.Grounded { u with step := s.step + 1 } := by
  subst hu
  have hwoken : (s.wakeAll waiters).Grounded := by
    refine ⟨h.exclusive.wakeAll waiters, ?_, h.entries, ?_⟩
    · intro c hc
      obtain ⟨c', hc', rfl⟩ := List.mem_map.mp hc
      rw [ResolveCall.wake_began]
      exact h.began c' hc'
    · intro c hc
      obtain ⟨c', hc', rfl⟩ := List.mem_map.mp hc
      exact ((h.calls c' hc').wake waiters).frame le_rfl fun _ e he => he
  exact hwoken.setPhase (s.wakeAll_notifying hcall hphase) rfl hexclusive rfl
    (fun id e he => .inl he) trivial

theorem next (h : s.Grounded) (l : ResolverStep) : (s.next chain l).Grounded := by
  have hexclusive : (s.next chain l).Exclusive := h.exclusive.next l
  have hacts := s.acts chain l
  rw [ResolverState.next] at hexclusive ⊢
  generalize s.act chain l = u at hacts hexclusive ⊢
  cases hacts with
  | idle => exact h.mono rfl hexclusive rfl fun id e he => he
  | began handle hbegan hphase =>
    rename_i call
    have hold := h.mono (u := { s with step := s.step + 1 }) rfl
      ⟨h.exclusive.owned, h.exclusive.single⟩ rfl fun id e he => he
    refine ⟨hexclusive, ?_, hold.entries, ?_⟩
    · intro c hc
      rcases List.mem_append.mp hc with hc | hc
      · exact hold.began c hc
      · rw [List.mem_singleton.mp hc, hbegan]
        exact Nat.lt_succ_self _
    · intro c hc
      rcases List.mem_append.mp hc with hc | hc
      · exact (hold.calls c hc).frame le_rfl fun _ e he => he
      · rw [List.mem_singleton.mp hc, ResolveCall.Grounded]
        rcases hphase with hphase | ⟨e, hphase⟩ <;> rw [hphase] <;> trivial
  | invalidating handle id => exact h.mono rfl hexclusive rfl fun id e he => he
  | moved hcall hmove => exact h.moved hcall hmove hexclusive
  | notified hcall hphase => exact h.notified hcall hphase rfl hexclusive
  | answered outcome hcall hphase => exact h.answered hcall hphase rfl hexclusive
  | dropped hcall hawaits =>
    exact h.setPhase hcall rfl hexclusive rfl (fun id e he => .inl he) trivial
  | removed hinv => exact h.mono rfl hexclusive rfl fun id e he => (Cache.get_remove he).2
  | ticked duration => exact h.mono rfl hexclusive rfl fun id e he => he

theorem init : ResolverState.Grounded {} := by
  refine ⟨ResolverState.Exclusive.init, ?_, ?_, ?_⟩
  · intro call hcall
    cases hcall
  · intro id e he
    cases he
  · intro call hcall
    cases hcall

end ResolverState.Grounded

end AgentExchange.Identity
