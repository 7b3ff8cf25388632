import AgentExchange.Identity.ResolverChain

/-!
# Single flight

One caller leads per handle. It holds the slot in `inflight` from the claim to the
release, and owes the waiters a notification until it has called `notify_waiters`.
-/
namespace AgentExchange.Identity

open Library

/-- The `Notify` in the slot that the call holds. -/
def Phase.slot : Phase → Option ℕ
  | .leading n | .fetching n _ _ _ | .storing n _ | .extending n _ _ _ | .releasing n _ => some n
  | _ => none

/-- The `Notify` that the call has taken out of the slot and is about to notify. -/
def Phase.notifies : Phase → Option ℕ
  | .notifying waiters _ => waiters
  | _ => none

/-- The `Notify` on which the call has still to call `notify_waiters`. -/
def Phase.owes (p : Phase) : Option ℕ := p.slot.or p.notifies

variable {chain : ResolverChain} {s : ResolverState}

/-- A call goes on with what it holds, claims the free slot, or takes its `Notify` out. -/
theorem Moves.slots {order : List AgentId} {handle : AgentId} {before after : Phase}
    {shared : ResolverState} (h : Moves chain s order handle before after shared) :
    shared.calls = s.calls ∧ before.notifies = none ∧
      ((shared.inflight = s.inflight ∧ after.slot = before.slot ∧ after.notifies = none) ∨
        (∃ n, s.inflight handle = none ∧ before.slot = none ∧ after = .leading n ∧
          shared.inflight = Function.update s.inflight handle (some n)) ∨
        ∃ n answer, before = .releasing n answer ∧
          after = .notifying (s.inflight handle) answer ∧
          shared.inflight = Function.update s.inflight handle none) := by
  cases h with
  | claim hfree => exact ⟨rfl, rfl, .inr (.inl ⟨_, hfree, rfl, rfl, rfl⟩)⟩
  | release n answer => exact ⟨rfl, rfl, .inr (.inr ⟨n, answer, rfl, rfl, rfl⟩)⟩
  | _ => exact ⟨rfl, rfl, .inl ⟨rfl, rfl, rfl⟩⟩

theorem Moves.parks {order : List AgentId} {handle : AgentId} {before after : Phase}
    {shared : ResolverState} (h : Moves chain s order handle before after shared) {n : ℕ}
    (hparked : after = .joined n ∨ after = .waiting n) :
    s.inflight handle = some n ∨ before = .joined n := by
  cases h with
  | join hslot =>
    rcases hparked with hparked | hparked
    · cases hparked
      exact .inl hslot
    · cases hparked
  | register m =>
    rcases hparked with hparked | hparked
    · cases hparked
    · cases hparked
      exact .inr rfl
  | _ => rcases hparked with hparked | hparked <;> cases hparked

@[simp] theorem ResolveCall.wake_handle (waiters : Option ℕ) (call : ResolveCall) :
    (call.wake waiters).handle = call.handle := by
  rw [ResolveCall.wake]
  split
  · split_ifs <;> rfl
  · rfl

@[simp] theorem ResolveCall.wake_began (waiters : Option ℕ) (call : ResolveCall) :
    (call.wake waiters).began = call.began := by
  rw [ResolveCall.wake]
  split
  · split_ifs <;> rfl
  · rfl

/-- Waking changes the phase of the waiters only. -/
theorem ResolveCall.wake_phase (waiters : Option ℕ) (call : ResolveCall) :
    (∃ n, waiters = some n ∧ call.phase = .waiting n ∧ (call.wake waiters).phase = .woken) ∨
      call.wake waiters = call ∧ ∀ n, waiters = some n → call.phase ≠ .waiting n := by
  rw [ResolveCall.wake]
  split
  · rename_i n hphase
    split_ifs with hn
    · exact .inl ⟨n, hn, hphase, rfl⟩
    · refine .inr ⟨rfl, fun m hm hwaiting => hn ?_⟩
      rw [hphase] at hwaiting
      rw [hm, Phase.waiting.inj hwaiting]
  · rename_i hphase
    exact .inr ⟨rfl, fun n _ => hphase n⟩

@[simp] theorem ResolveCall.wake_slot (waiters : Option ℕ) (call : ResolveCall) :
    (call.wake waiters).phase.slot = call.phase.slot := by
  rcases call.wake_phase waiters with ⟨n, -, hwaiting, hwoken⟩ | ⟨hsame, -⟩
  · rw [hwaiting, hwoken]
    rfl
  · rw [hsame]

@[simp] theorem ResolveCall.wake_owes (waiters : Option ℕ) (call : ResolveCall) :
    (call.wake waiters).phase.owes = call.phase.owes := by
  rcases call.wake_phase waiters with ⟨n, -, hwaiting, hwoken⟩ | ⟨hsame, -⟩
  · rw [hwaiting, hwoken]
    rfl
  · rw [hsame]

theorem ResolverState.wakeAll_notifying {waiters w : Option ℕ} {answer : Answer} {i : ℕ}
    {call : ResolveCall} (hcall : s.calls[i]? = some call)
    (hphase : call.phase = .notifying waiters answer) :
    (s.wakeAll w).calls[i]? = some call := by
  have hwake : call.wake w = call := by rw [ResolveCall.wake, hphase]
  rw [ResolverState.wakeAll, List.getElem?_map, hcall, Option.map_some, hwake]

/-! ### One leader per handle -/

/-- A call that leads has its `Notify` in the slot of its handle, and no two calls lead for one
handle. -/
structure ResolverState.Exclusive (s : ResolverState) : Prop where
  owned : ∀ call ∈ s.calls, ∀ n, call.phase.slot = some n → s.inflight call.handle = some n
  single : ∀ (i j : ℕ) (ci cj : ResolveCall), s.calls[i]? = some ci → s.calls[j]? = some cj →
    ci.handle = cj.handle → ci.phase.slot ≠ none → cj.phase.slot ≠ none → i = j

namespace ResolverState.Exclusive

/-- A call that keeps or gives up what it holds. -/
theorem setPhase (h : s.Exclusive) {shared : ResolverState} {i : ℕ} {call : ResolveCall}
    {phase : Phase} (hcall : s.calls[i]? = some call) (hcalls : shared.calls = s.calls)
    (hinflight : shared.inflight = s.inflight)
    (hslot : phase.slot = call.phase.slot ∨ phase.slot = none) :
    (shared.setPhase i call phase).Exclusive := by
  have hold : ∀ (j : ℕ) (c : ResolveCall), (shared.setPhase i call phase).calls[j]? = some c →
      c.phase.slot ≠ none → ∃ c' : ResolveCall, s.calls[j]? = some c' ∧ c'.handle = c.handle ∧
        c'.phase.slot = c.phase.slot := by
    intro j c hc hne
    rcases getElem?_setPhase hc with ⟨rfl, rfl⟩ | ⟨-, hc⟩
    · refine ⟨call, hcall, rfl, ?_⟩
      rcases hslot with hslot | hslot
      · exact hslot.symm
      · exact absurd hslot hne
    · exact ⟨c, hcalls ▸ hc, rfl, rfl⟩
  constructor
  · intro c hc n hn
    obtain ⟨j, hj⟩ := List.mem_iff_getElem?.mp hc
    obtain ⟨c', hc', hhandle, hslot'⟩ := hold j c hj (by rw [hn]; exact Option.some_ne_none n)
    change shared.inflight c.handle = some n
    rw [hinflight, ← hhandle]
    exact h.owned c' (List.mem_of_getElem? hc') n (hslot'.trans hn)
  · intro j k cj ck hj hk hhandle hsj hsk
    obtain ⟨cj', hcj', hhj, hsj'⟩ := hold j cj hj hsj
    obtain ⟨ck', hck', hhk, hsk'⟩ := hold k ck hk hsk
    exact h.single j k cj' ck' hcj' hck' (by rw [hhj, hhk, hhandle]) (hsj' ▸ hsj) (hsk' ▸ hsk)

theorem wakeAll (h : s.Exclusive) (waiters : Option ℕ) : (s.wakeAll waiters).Exclusive := by
  constructor
  · intro c hc n hn
    obtain ⟨c', hc', rfl⟩ := List.mem_map.mp hc
    rw [ResolveCall.wake_slot] at hn
    rw [ResolveCall.wake_handle]
    exact h.owned c' hc' n hn
  · intro i j ci cj hi hj hhandle hsi hsj
    rw [ResolverState.wakeAll, List.getElem?_map, Option.map_eq_some_iff] at hi hj
    obtain ⟨ci', hi, rfl⟩ := hi
    obtain ⟨cj', hj, rfl⟩ := hj
    rw [ResolveCall.wake_slot] at hsi hsj
    rw [ResolveCall.wake_handle, ResolveCall.wake_handle] at hhandle
    exact h.single i j ci' cj' hi hj hhandle hsi hsj

/-- Claiming the free slot. -/
theorem claim (h : s.Exclusive) {shared : ResolverState} {i n : ℕ} {call : ResolveCall}
    (hcalls : shared.calls = s.calls) (hfree : s.inflight call.handle = none)
    (hinflight : shared.inflight = Function.update s.inflight call.handle (some n)) :
    (shared.setPhase i call (.leading n)).Exclusive := by
  have hother : ∀ (j : ℕ) (c : ResolveCall), s.calls[j]? = some c → c.phase.slot ≠ none →
      c.handle ≠ call.handle := by
    intro j c hc hne hhandle
    obtain ⟨k, hk⟩ := Option.ne_none_iff_exists'.mp hne
    have howned := h.owned c (List.mem_of_getElem? hc) k hk
    rw [hhandle, hfree] at howned
    cases howned
  constructor
  · intro c hc k hk
    obtain ⟨j, hj⟩ := List.mem_iff_getElem?.mp hc
    change shared.inflight c.handle = some k
    rw [hinflight]
    rcases getElem?_setPhase hj with ⟨rfl, rfl⟩ | ⟨-, hj⟩
    · cases hk
      exact Function.update_self ..
    · rw [hcalls] at hj
      have hne := hother j c hj (by rw [hk]; exact Option.some_ne_none k)
      rw [Function.update_of_ne hne]
      exact h.owned c (List.mem_of_getElem? hj) k hk
  · intro j k cj ck hj hk hhandle hsj hsk
    rcases getElem?_setPhase hj with ⟨rfl, rfl⟩ | ⟨-, hj'⟩ <;>
      rcases getElem?_setPhase hk with ⟨rfl, rfl⟩ | ⟨-, hk'⟩
    · rfl
    · exact absurd hhandle.symm (hother k ck (hcalls ▸ hk') hsk)
    · exact absurd hhandle (hother j cj (hcalls ▸ hj') hsj)
    · exact h.single j k cj ck (hcalls ▸ hj') (hcalls ▸ hk') hhandle hsj hsk

/-- Giving the slot back. -/
theorem release (h : s.Exclusive) {shared : ResolverState} {i : ℕ} {call : ResolveCall}
    {phase : Phase} (hcall : s.calls[i]? = some call) (hcalls : shared.calls = s.calls)
    (hslot : call.phase.slot ≠ none) (hphase : phase.slot = none)
    (hinflight : shared.inflight = Function.update s.inflight call.handle none) :
    (shared.setPhase i call phase).Exclusive := by
  constructor
  · intro c hc n hn
    obtain ⟨j, hj⟩ := List.mem_iff_getElem?.mp hc
    rcases getElem?_setPhase hj with ⟨rfl, rfl⟩ | ⟨hne, hj⟩
    · rw [hphase] at hn
      cases hn
    · rw [hcalls] at hj
      have hother : c.handle ≠ call.handle := fun hhandle =>
        hne (h.single j i c call hj hcall hhandle (by rw [hn]; exact Option.some_ne_none n) hslot)
      change shared.inflight c.handle = some n
      rw [hinflight, Function.update_of_ne hother]
      exact h.owned c (List.mem_of_getElem? hj) n hn
  · have hgiven : (s.setPhase i call phase).Exclusive := h.setPhase hcall rfl rfl (.inr hphase)
    rw [ResolverState.setPhase, hcalls]
    exact hgiven.single

theorem moved (h : s.Exclusive) {i : ℕ} {order : List AgentId} {call : ResolveCall}
    {phase : Phase} {shared : ResolverState} (hcall : s.calls[i]? = some call)
    (hmove : Moves chain s order call.handle call.phase phase shared) :
    (shared.setPhase i call phase).Exclusive := by
  obtain ⟨hcalls, -, ⟨hinflight, hslot, -⟩ | ⟨n, hfree, -, rfl, hinflight⟩ |
    ⟨n, answer, hbefore, rfl, hinflight⟩⟩ := hmove.slots
  · exact h.setPhase hcall hcalls hinflight (.inl hslot)
  · exact h.claim hcalls hfree hinflight
  · exact h.release hcall hcalls (by rw [hbefore]; exact Option.some_ne_none n) rfl hinflight

theorem answered_slot (s : ResolverState) (n : ℕ) (etag : Option String)
    (cached : Option CacheEntry) (sent : ℕ) (outcome : Except ResolverError ResolveOutcome) :
    (s.answered n etag cached sent outcome).slot = some n := by
  rcases outcome with e | record | _ <;> rfl

theorem next (h : s.Exclusive) (l : ResolverStep) : (s.next chain l).Exclusive := by
  suffices h' : (s.act chain l).Exclusive from ⟨h'.owned, h'.single⟩
  have hacts := s.acts chain l
  generalize s.act chain l = t at hacts ⊢
  cases hacts with
  | idle => exact h
  | began handle hbegan hphase =>
    rename_i call
    have hslot : call.phase.slot = none := by
      rcases hphase with hphase | ⟨e, hphase⟩ <;> rw [hphase] <;> rfl
    have hold : ∀ (j : ℕ) (c : ResolveCall), (s.calls ++ [call])[j]? = some c →
        c.phase.slot ≠ none → s.calls[j]? = some c := by
      intro j c hc hne
      rw [List.getElem?_append] at hc
      split_ifs at hc
      · exact hc
      · obtain rfl := List.mem_singleton.mp (List.mem_of_getElem? hc)
        exact absurd hslot hne
    constructor
    · intro c hc n hn
      obtain ⟨j, hj⟩ := List.mem_iff_getElem?.mp hc
      exact h.owned c (List.mem_of_getElem? (hold j c hj (by rw [hn]; exact Option.some_ne_none n)))
        n hn
    · intro i j ci cj hi hj hhandle hsi hsj
      exact h.single i j ci cj (hold i ci hi hsi) (hold j cj hj hsj) hhandle hsi hsj
  | invalidating handle id => exact ⟨h.owned, h.single⟩
  | moved hcall hmove => exact h.moved hcall hmove
  | notified hcall hphase =>
    exact (h.wakeAll _).setPhase (s.wakeAll_notifying hcall hphase) rfl rfl (.inr rfl)
  | answered outcome hcall hphase =>
    refine h.setPhase hcall rfl rfl (.inl ?_)
    rw [answered_slot, hphase]
    rfl
  | dropped hcall hawaits => exact h.setPhase hcall rfl rfl (.inr rfl)
  | removed hinv => exact ⟨h.owned, h.single⟩
  | ticked duration => exact ⟨h.owned, h.single⟩

end ResolverState.Exclusive

/-! ### Wakeups -/

/-- A live call for the handle has still to call `notify_waiters` on `n`. -/
def ResolverState.Led (s : ResolverState) (handle : AgentId) (n : ℕ) : Prop :=
  ∃ leader ∈ s.calls, leader.handle = handle ∧ leader.phase.owes = some n

instance (s : ResolverState) (handle : AgentId) (n : ℕ) : Decidable (s.Led handle n) :=
  inferInstanceAs (Decidable (∃ leader ∈ s.calls, leader.handle = handle ∧
    leader.phase.owes = some n))

/-- Whoever waits on a `Notify` has a leader that will notify it. -/
def ResolverState.NoLostWakeup (s : ResolverState) : Prop :=
  ∀ call ∈ s.calls, ∀ n, call.phase = .waiting n → s.Led call.handle n

/-- No call is dropped while it holds a slot, and every call that has cloned a `Notify` has
called `notified` by the time its waiters are notified. -/
def ResolverStep.Registered (s : ResolverState) : ResolverStep → Prop
  | .drop i => ∀ call ∈ s.calls[i]?, call.phase.slot = none
  | .advance i _ => ∀ call ∈ s.calls[i]?, ∀ n ∈ call.phase.notifies,
      ∀ c ∈ s.calls, c.phase ≠ .joined n
  | _ => True

instance (s : ResolverState) : ∀ l : ResolverStep, Decidable (l.Registered s)
  | .drop i => inferInstanceAs (Decidable (∀ call ∈ s.calls[i]?, call.phase.slot = none))
  | .advance i _ => inferInstanceAs (Decidable (∀ call ∈ s.calls[i]?,
      ∀ n ∈ call.phase.notifies, ∀ c ∈ s.calls, c.phase ≠ .joined n))
  | .resolve _ | .invalidate _ | .answer _ _ | .remove _ | .tick _ =>
    inferInstanceAs (Decidable True)

/-- Filled slots have a live holder, and callers on their way to waiting have a leader too. -/
structure ResolverState.InFlight (s : ResolverState) : Prop where
  exclusive : s.Exclusive
  held : ∀ handle n, s.inflight handle = some n →
    ∃ c ∈ s.calls, c.handle = handle ∧ c.phase.slot = some n
  parked : ∀ call ∈ s.calls, ∀ n, call.phase = .joined n ∨ call.phase = .waiting n →
    s.Led call.handle n

theorem ResolverState.Led.setPhase {shared : ResolverState} {i n : ℕ} {handle : AgentId}
    {call : ResolveCall} {phase : Phase} (h : s.Led handle n) (hcall : s.calls[i]? = some call)
    (hcalls : shared.calls = s.calls)
    (hkeep : ∀ m, call.phase.owes = some m → phase.owes = some m) :
    (shared.setPhase i call phase).Led handle n := by
  obtain ⟨leader, hmem, hhandle, howes⟩ := h
  rw [← hcalls] at hcall hmem
  obtain ⟨hnew, hold⟩ := ResolverState.mem_setPhase phase hcall
  rcases hold leader hmem with rfl | hstays
  · exact ⟨_, hnew, hhandle, hkeep n howes⟩
  · exact ⟨leader, hstays, hhandle, howes⟩

namespace ResolverState.InFlight

/-- The holders of the slots whose entry does not change. -/
theorem held_setPhase (h : s.InFlight) {shared : ResolverState} {i n : ℕ} {handle : AgentId}
    {call : ResolveCall} {phase : Phase} (hcall : s.calls[i]? = some call)
    (hcalls : shared.calls = s.calls) (hslot : s.inflight handle = some n)
    (hkeep : call.handle = handle → call.phase.slot = some n → phase.slot = some n) :
    ∃ c ∈ (shared.setPhase i call phase).calls, c.handle = handle ∧ c.phase.slot = some n := by
  obtain ⟨holder, hmem, hhandle, hholds⟩ := h.held handle n hslot
  rw [← hcalls] at hcall hmem
  obtain ⟨hnew, hold⟩ := ResolverState.mem_setPhase phase hcall
  rcases hold holder hmem with rfl | hstays
  · exact ⟨_, hnew, hhandle, hkeep hhandle hholds⟩
  · exact ⟨holder, hstays, hhandle, hholds⟩

/-- A call that parks nowhere and still owes what it owed. -/
theorem parked_setPhase (h : s.InFlight) {shared : ResolverState} {i : ℕ} {call : ResolveCall}
    {phase : Phase} (hcall : s.calls[i]? = some call) (hcalls : shared.calls = s.calls)
    (hkeep : ∀ m, call.phase.owes = some m → phase.owes = some m)
    (hpark : ∀ n, phase = .joined n ∨ phase = .waiting n → s.Led call.handle n) :
    ∀ c ∈ (shared.setPhase i call phase).calls, ∀ n,
      c.phase = .joined n ∨ c.phase = .waiting n →
        (shared.setPhase i call phase).Led c.handle n := by
  intro c hc n hparked
  have hled : s.Led c.handle n := by
    rcases ResolverState.mem_of_mem_setPhase hc with rfl | hc
    · exact hpark n hparked
    · exact h.parked c (hcalls ▸ hc) n hparked
  exact hled.setPhase hcall hcalls hkeep

theorem led_of_slot (h : s.InFlight) {handle : AgentId} {n : ℕ}
    (hslot : s.inflight handle = some n) : s.Led handle n := by
  obtain ⟨holder, hmem, hhandle, hholds⟩ := h.held handle n hslot
  exact ⟨holder, hmem, hhandle, by rw [Phase.owes, hholds, Option.some_or]⟩

theorem moved (h : s.InFlight) {i : ℕ} {order : List AgentId} {call : ResolveCall}
    {phase : Phase} {shared : ResolverState} (hcall : s.calls[i]? = some call)
    (hmove : Moves chain s order call.handle call.phase phase shared) :
    (shared.setPhase i call phase).InFlight := by
  have hpark : ∀ n, phase = .joined n ∨ phase = .waiting n → s.Led call.handle n := by
    intro n hparked
    rcases hmove.parks hparked with hslot | hjoined
    · exact h.led_of_slot hslot
    · exact h.parked call (List.mem_of_getElem? hcall) n (.inl hjoined)
  have hexclusive := h.exclusive.moved hcall hmove
  obtain ⟨hcalls, hnotifies, ⟨hinflight, hslot, hnone⟩ | ⟨n, hfree, hbefore, rfl, hinflight⟩ |
    ⟨n, answer, hbefore, rfl, hinflight⟩⟩ := hmove.slots
  · refine ⟨hexclusive, ?_, h.parked_setPhase hcall hcalls ?_ hpark⟩
    · intro handle n hn
      change shared.inflight handle = some n at hn
      rw [hinflight] at hn
      exact h.held_setPhase hcall hcalls hn fun _ hholds => hslot.trans hholds
    · intro m hm
      rwa [Phase.owes, hslot, hnone, ← hnotifies]
  · refine ⟨hexclusive, ?_, h.parked_setPhase hcall hcalls ?_ hpark⟩
    · intro handle m hm
      change shared.inflight handle = some m at hm
      rw [hinflight] at hm
      by_cases hhandle : handle = call.handle
      · rw [hhandle, Function.update_self] at hm
        cases hm
        rw [← hcalls] at hcall
        exact ⟨_, (ResolverState.mem_setPhase _ hcall).1, hhandle.symm, rfl⟩
      · rw [Function.update_of_ne hhandle] at hm
        exact h.held_setPhase hcall hcalls hm fun hsame _ => absurd hsame.symm hhandle
    · intro m hm
      rw [Phase.owes, hbefore, hnotifies] at hm
      cases hm
  · refine ⟨hexclusive, ?_, h.parked_setPhase hcall hcalls ?_ hpark⟩
    · intro handle m hm
      change shared.inflight handle = some m at hm
      rw [hinflight] at hm
      by_cases hhandle : handle = call.handle
      · rw [hhandle, Function.update_self] at hm
        cases hm
      · rw [Function.update_of_ne hhandle] at hm
        exact h.held_setPhase hcall hcalls hm fun hsame _ => absurd hsame.symm hhandle
    · intro m hm
      rw [hbefore] at hm
      cases hm
      exact h.exclusive.owned call (List.mem_of_getElem? hcall) n (by rw [hbefore]; rfl)

/-- `notify_waiters` leaves nobody parked on that `Notify`. -/
theorem notified (h : s.InFlight) {i : ℕ} {call : ResolveCall} {waiters : Option ℕ}
    {answer : Answer} (hcall : s.calls[i]? = some call)
    (hphase : call.phase = .notifying waiters answer)
    (hjoined : ∀ n, waiters = some n → ∀ c ∈ s.calls, c.phase ≠ .joined n) :
    ((s.wakeAll waiters).setPhase i call (.returned answer s.now)).InFlight := by
  have hcall' := s.wakeAll_notifying (w := waiters) hcall hphase
  obtain ⟨-, hold⟩ := ResolverState.mem_setPhase (.returned answer s.now) hcall'
  have hexclusive : ((s.wakeAll waiters).setPhase i call (.returned answer s.now)).Exclusive :=
    (h.exclusive.wakeAll waiters).setPhase hcall' rfl rfl (.inr rfl)
  refine ⟨hexclusive, ?_, ?_⟩
  · intro handle n hn
    obtain ⟨holder, hmem, hhandle, hholds⟩ := h.held handle n hn
    rcases hold _ (List.mem_map_of_mem hmem) with heq | hstays
    · have hslot := congrArg (fun c : ResolveCall => c.phase.slot) heq
      rw [ResolveCall.wake_slot, hholds, hphase] at hslot
      cases hslot
    · exact ⟨_, hstays, by rw [ResolveCall.wake_handle, hhandle],
        by rw [ResolveCall.wake_slot, hholds]⟩
  · intro c hc n hparked
    rcases ResolverState.mem_of_mem_setPhase hc with rfl | hc
    · rcases hparked with hparked | hparked <;> cases hparked
    obtain ⟨c', hc', rfl⟩ := List.mem_map.mp hc
    rcases c'.wake_phase waiters with ⟨m, -, -, hwoken⟩ | ⟨hsame, hwaiting⟩
    · rw [hwoken] at hparked
      rcases hparked with hparked | hparked <;> cases hparked
    rw [hsame] at hparked ⊢
    have hother : waiters ≠ some n := by
      intro hn
      rcases hparked with hparked | hparked
      · exact hjoined n hn c' hc' hparked
      · exact hwaiting n hn hparked
    obtain ⟨leader, hmem, hhandle, howes⟩ := h.parked c' hc' n hparked
    rcases hold _ (List.mem_map_of_mem hmem) with heq | hstays
    · have howed := congrArg (fun c : ResolveCall => c.phase.owes) heq
      rw [ResolveCall.wake_owes, howes, hphase] at howed
      exact absurd howed.symm hother
    · exact ⟨_, hstays, by rw [ResolveCall.wake_handle, hhandle],
        by rw [ResolveCall.wake_owes, howes]⟩

theorem began (h : s.InFlight) {call : ResolveCall}
    (hexclusive : ResolverState.Exclusive { s with calls := s.calls ++ [call] })
    (hphase : call.phase = .start ∨ ∃ e, call.phase = .returned (.error e) s.now) :
    ResolverState.InFlight { s with calls := s.calls ++ [call] } := by
  refine ⟨hexclusive, ?_, ?_⟩
  · intro handle n hn
    obtain ⟨holder, hmem, hholds⟩ := h.held handle n hn
    exact ⟨holder, List.mem_append_left _ hmem, hholds⟩
  · intro c hc n hparked
    rcases List.mem_append.mp hc with hc | hc
    · obtain ⟨leader, hmem, hleads⟩ := h.parked c hc n hparked
      exact ⟨leader, List.mem_append_left _ hmem, hleads⟩
    · obtain rfl := List.mem_singleton.mp hc
      rcases hphase with hphase | ⟨e, hphase⟩ <;> rw [hphase] at hparked <;>
        rcases hparked with hparked | hparked <;> cases hparked

theorem next (h : s.InFlight) (l : ResolverStep) (hl : l.Registered s) :
    (s.next chain l).InFlight := by
  suffices h' : (s.act chain l).InFlight from
    ⟨h.exclusive.next l, h'.held, h'.parked⟩
  have hexclusive : (s.act chain l).Exclusive :=
    ⟨(h.exclusive.next l).owned, (h.exclusive.next l).single⟩
  have hacts := s.acts chain l
  generalize s.act chain l = t at hacts hexclusive ⊢
  cases hacts with
  | idle => exact h
  | began handle hbegan hphase => exact h.began hexclusive hphase
  | invalidating handle id => exact ⟨hexclusive, h.held, h.parked⟩
  | moved hcall hmove => exact h.moved hcall hmove
  | notified hcall hphase =>
    refine h.notified hcall hphase fun n hn => hl _ hcall n ?_
    rw [hphase, hn]
    exact rfl
  | answered outcome hcall hphase =>
    rename_i i n sent call etag cached
    have hslot := Exclusive.answered_slot s n etag cached sent outcome
    refine ⟨hexclusive, ?_, h.parked_setPhase hcall rfl ?_ ?_⟩
    · intro handle m hm
      refine h.held_setPhase hcall rfl hm fun _ hholds => ?_
      rw [hphase] at hholds
      rw [hslot, ← hholds]
      rfl
    · intro m hm
      rw [hphase] at hm
      rw [Phase.owes, hslot, ← hm]
      rfl
    · intro m hparked
      rcases hparked with hparked | hparked <;> rw [hparked] at hslot <;> cases hslot
  | dropped hcall hawaits =>
    rename_i i call
    have hslot : call.phase.slot = none := hl call hcall
    have hnotifies : call.phase.notifies = none := by
      cases hphase : call.phase with
      | notifying waiters answer =>
        rw [hphase] at hawaits
        cases hawaits
      | _ => rfl
    refine ⟨hexclusive, ?_, h.parked_setPhase hcall rfl ?_ ?_⟩
    · intro handle m hm
      refine h.held_setPhase hcall rfl hm fun _ hholds => ?_
      rw [hslot] at hholds
      cases hholds
    · intro m hm
      rw [Phase.owes, hslot, hnotifies] at hm
      cases hm
    · intro m hparked
      rcases hparked with hparked | hparked <;> cases hparked
  | removed hinv => exact ⟨hexclusive, h.held, h.parked⟩
  | ticked duration => exact ⟨hexclusive, h.held, h.parked⟩

end ResolverState.InFlight

theorem ResolverState.Exclusive.init : ResolverState.Exclusive {} := by
  constructor
  · intro call hcall
    cases hcall
  · intro i j ci cj hi
    cases hi

theorem ResolverState.InFlight.init : ResolverState.InFlight {} := by
  refine ⟨ResolverState.Exclusive.init, ?_, ?_⟩
  · intro handle n hn
    cases hn
  · intro call hcall
    cases hcall

/-- In a run where no slot holder is dropped and everyone is registered in time, whoever waits
is going to be notified. -/
theorem no_lost_wakeup_of_registered (chain : ResolverChain) (labels : List ResolverStep)
    (h : Machine.Along (ResolverState.next chain) (fun s l => l.Registered s) {} labels) :
    ∀ done, done <+: labels →
      (Machine.run (ResolverState.next chain) {} done).NoLostWakeup := by
  rintro done ⟨rest, rfl⟩
  have hsound := (Machine.along_append.mp h).1.invariant ResolverState.InFlight.init
    fun s l hs hl => hs.next l hl
  exact fun call hcall n hn => hsound.parked call hcall n (.inr hn)

namespace Sample

def webChain : ResolverChain := { resolvers := fun _ => true }

def handle : String := "did:web:acme.com#x"

def record : ResolvedAgent := ⟨⟨handle⟩, "a1", .empty, some "v1"⟩

/-- Two callers for one handle, until the first leads and the second is about to wait. -/
def joined : List ResolverStep :=
  [.resolve handle, .resolve handle, .advance 0 [], .advance 1 [], .advance 0 [], .advance 1 []]

/-- The leader fetches and notifies. -/
def led : List ResolverStep :=
  [.advance 0 [], .answer 0 (.ok (.fresh record)), .advance 0 [], .advance 0 [], .advance 0 []]

/-- The second caller calls `notified` only after that. -/
def late : List ResolverStep := joined ++ led ++ [.advance 1 []]

/-- The leader is dropped while it fetches. -/
def abandoned : List ResolverStep := joined ++ [.advance 0 [], .drop 0, .advance 1 []]

/-- The second caller is registered in time and reads the cache again. -/
def prompt : List ResolverStep := joined ++ [.advance 1 []] ++ led ++ [.advance 1 []]

end Sample

/-- A caller that waits on a `Notify` nobody is going to notify. -/
theorem ResolverState.lost_of_stranded (n : ℕ)
    (h : ∃ call ∈ s.calls, call.phase = .waiting n ∧ ¬s.Led call.handle n) : ¬s.NoLostWakeup := by
  obtain ⟨call, hcall, hphase, hled⟩ := h
  exact fun hno => hled (hno call hcall n hphase)

theorem no_lost_wakeup_of_registered_prompt :
    (∃ call ∈ (Machine.run (ResolverState.next Sample.webChain) {}
        (Sample.joined ++ [.advance 1 []])).calls, call.phase = .waiting 0) ∧
      ∀ done, done <+: Sample.prompt →
        (Machine.run (ResolverState.next Sample.webChain) {} done).NoLostWakeup :=
  ⟨by decide +kernel, no_lost_wakeup_of_registered Sample.webChain Sample.prompt
    (by decide +kernel)⟩

/-- The leader can notify before a caller that saw it is registered, and it can be dropped. -/
theorem caller_stranded :
    ¬(Machine.run (ResolverState.next Sample.webChain) {} Sample.late).NoLostWakeup ∧
      ¬(Machine.run (ResolverState.next Sample.webChain) {} Sample.abandoned).NoLostWakeup := by
  constructor
  · exact ResolverState.lost_of_stranded 0 (by decide +kernel)
  · exact ResolverState.lost_of_stranded 0 (by decide +kernel)

end AgentExchange.Identity
