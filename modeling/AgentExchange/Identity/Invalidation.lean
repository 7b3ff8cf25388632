import AgentExchange.Identity.Revalidation

/-!
# Invalidation

`invalidate` takes the entry out of the cache. What is stored afterwards can still come
from a request that was sent before.
-/
namespace AgentExchange.Identity

open Library

variable {chain : ResolverChain} {s : ResolverState}

/-- The call was made after the invalidation of its handle had returned. -/
def ResolveCall.After (call : ResolveCall) (inv : InvalidateCall) : Prop :=
  call.handle = inv.handle ∧ ∃ time ∈ inv.returned, time < call.began

/-- No call made after an invalidation returned answers with a record whose request was sent
before the invalidation was called. -/
def ResolverState.InvalidationEffective (s : ResolverState) : Prop :=
  ∀ inv ∈ s.invalidations, ∀ call ∈ s.calls, call.After inv →
    ∀ record origin time, call.phase = .returned (.ok (record, origin)) time →
      inv.began ≤ origin.sent

/-- The fresh record that the call is about to store. -/
def Phase.stores : Phase → Option CacheEntry
  | .storing _ entry => some entry
  | _ => none

/-- A fresh record is stored only if no invalidation of the handle that has returned was called
after the request was sent. -/
def ResolverStep.StoresCurrent (s : ResolverState) : ResolverStep → Prop
  | .advance i _ => ∀ call ∈ s.calls[i]?, ∀ entry ∈ call.phase.stores,
      ∀ inv ∈ s.invalidations, inv.handle = call.handle → inv.returned.isSome →
        inv.began ≤ entry.origin.sent
  | _ => True

instance (s : ResolverState) : ∀ l : ResolverStep, Decidable (l.StoresCurrent s)
  | .advance i _ => inferInstanceAs (Decidable (∀ call ∈ s.calls[i]?,
      ∀ entry ∈ call.phase.stores, ∀ inv ∈ s.invalidations, inv.handle = call.handle →
        inv.returned.isSome → inv.began ≤ entry.origin.sent))
  | .resolve _ | .invalidate _ | .answer _ _ | .drop _ | .remove _ | .tick _ =>
    inferInstanceAs (Decidable True)

/-- What an invalidation that has returned leaves in the cache is no older than it. -/
structure ResolverState.Current (s : ResolverState) : Prop where
  grounded : s.Grounded
  times : ∀ inv ∈ s.invalidations, inv.began < s.step ∧
    ∀ time ∈ inv.returned, inv.began ≤ time
  entries : ∀ inv ∈ s.invalidations, inv.returned.isSome →
    ∀ e, s.cache.get inv.handle = some e → inv.began ≤ e.origin.sent
  effective : s.InvalidationEffective

theorem ResolveCall.After.isSome {call : ResolveCall} {inv : InvalidateCall}
    (h : call.After inv) : inv.returned.isSome := by
  obtain ⟨-, time, htime, -⟩ := h
  rw [Option.isSome_iff_exists]
  exact ⟨time, htime⟩

namespace ResolverState.Current

/-- A leader's record comes from a request of its own. -/
theorem own_request (h : s.Current) {inv : InvalidateCall} {call : ResolveCall} {origin : Origin}
    (hinv : inv ∈ s.invalidations) (hafter : call.After inv) (hbegan : call.began ≤ origin.sent) :
    inv.began ≤ origin.sent := by
  obtain ⟨-, time, htime, hlt⟩ := hafter
  have := (h.times inv hinv).2 time htime
  omega

/-- What is in the cache after the step. -/
theorem next_entries (h : s.Current) {l : ResolverStep} {u : ResolverState}
    (hacts : Acts chain s l u) (hl : l.StoresCurrent s) {inv : InvalidateCall}
    (hinv : inv ∈ u.invalidations) (hreturned : inv.returned.isSome) {e : CacheEntry}
    (he : u.cache.get inv.handle = some e) : inv.began ≤ e.origin.sent := by
  rcases hacts.invalidations hinv with hinv | ⟨-, hnone⟩ | ⟨-, -, hcache, -⟩
  · rcases hacts.cached he with he | ⟨i, order, call, rfl, hcall, hid, ⟨n, hphase⟩ |
      ⟨n, etag, cached, origin, e', hphase, hget, rfl⟩⟩
    · exact h.entries inv hinv hreturned e he
    · exact hl call hcall e (by rw [hphase]; exact rfl) inv hinv hid hreturned
    · have hle := h.entries inv hinv hreturned e' (hid ▸ hget)
      have hmem := List.mem_of_getElem? hcall
      exact hle.trans (h.grounded.extended_older hmem hphase hget).le
  · rw [hnone] at hreturned
    cases hreturned
  · rw [hcache] at he
    exact absurd (List.mem_singleton.mpr rfl) (Cache.get_remove he).1

/-- What the calls have answered after the step. -/
theorem next_effective (h : s.Current) {l : ResolverStep} {u : ResolverState}
    (hacts : Acts chain s l u) : u.InvalidationEffective := by
  intro inv hinv c hc hafter record origin time hphase
  rcases hacts.invalidations hinv with hinv | ⟨-, hnone⟩ | ⟨-, hreturned, -, hcalls⟩
  · rcases hacts.returns hc hphase with hc | ⟨-, i, order, call, -, hcall, hhandle, hbegan,
      ⟨e, hget, rfl, -⟩ | ⟨waiters, hnotifying⟩⟩
    · exact h.effective inv hinv c hc hafter record origin time hphase
    · exact h.entries inv hinv hafter.isSome e (by rw [← hafter.1, hhandle, hget])
    · have hg := h.grounded.calls call (List.mem_of_getElem? hcall)
      rw [ResolveCall.Grounded, hnotifying] at hg
      exact h.own_request hinv hafter (hbegan ▸ hg record origin rfl)
  · have hsome := hafter.isSome
    rw [hnone] at hsome
    cases hsome
  · obtain ⟨-, time, htime, hlt⟩ := hafter
    rw [hreturned] at htime
    cases htime
    rw [hcalls] at hc
    exact absurd (h.grounded.began c hc) hlt.not_gt

theorem next (h : s.Current) (l : ResolverStep) (hl : l.StoresCurrent s) :
    (s.next chain l).Current := by
  have hacts := s.acts chain l
  have heffective := h.next_effective hacts
  refine ⟨h.grounded.next l, ?_, ?_, heffective⟩
  · intro inv hinv
    rw [ResolverState.next]
    rcases hacts.invalidations hinv with hinv | ⟨hbegan, hnone⟩ | ⟨hinv, hreturned, -, -⟩
    · obtain ⟨hbegan, htimes⟩ := h.times inv hinv
      exact ⟨hbegan.trans (Nat.lt_succ_self _), htimes⟩
    · rw [hbegan, hnone]
      refine ⟨Nat.lt_succ_self _, fun time htime => ?_⟩
      cases htime
    · have hbegan := (h.times _ hinv).1
      rw [hreturned]
      refine ⟨hbegan.trans (Nat.lt_succ_self _), fun time htime => ?_⟩
      cases htime
      exact hbegan.le
  · intro inv hinv hreturned e he
    exact h.next_entries hacts hl hinv hreturned he

theorem init : ResolverState.Current {} := by
  refine ⟨ResolverState.Grounded.init, ?_, ?_, ?_⟩
  all_goals
    intro inv hinv
    cases hinv

end ResolverState.Current

/-- When no leader stores what it requested before an invalidation that has returned, no later
call answers with such a record. -/
theorem invalidation_effective (chain : ResolverChain) (labels : List ResolverStep)
    (h : Machine.Along (ResolverState.next chain) (fun s l => l.StoresCurrent s) {} labels) :
    ∀ done, done <+: labels →
      (Machine.run (ResolverState.next chain) {} done).InvalidationEffective := by
  rintro done ⟨rest, rfl⟩
  have hcurrent := (Machine.along_append.mp h).1.invariant ResolverState.Current.init
    fun s l hs hl => hs.next l hl
  exact hcurrent.effective

namespace Sample

/-- A call that has just sent its request. -/
def requested (i : ℕ) : List ResolverStep :=
  [.resolve handle, .advance i [], .advance i [], .advance i []]

/-- The request is answered with a fresh record, which the call stores and returns. -/
def stored (i : ℕ) : List ResolverStep :=
  [.answer i (.ok (.fresh record)), .advance i [], .advance i [], .advance i []]

def invalidated : List ResolverStep := [.invalidate handle, .remove 0]

/-- The record is removed and requested again. -/
def renewed : List ResolverStep := requested 0 ++ stored 0 ++ invalidated ++ requested 1 ++ stored 1

/-- The invalidation overtakes a request, and a later call finds its record in the cache. -/
def overtaken : List ResolverStep :=
  requested 0 ++ invalidated ++ stored 0 ++ [.resolve handle, .advance 1 []]

end Sample

theorem invalidation_effective_renewed :
    (∃ call ∈ (Machine.run (ResolverState.next Sample.webChain) {} Sample.renewed).calls,
        call.phase = .returned (.ok (Sample.record, ⟨13, 0⟩)) 0) ∧
      ∀ done, done <+: Sample.renewed →
        (Machine.run (ResolverState.next Sample.webChain) {} done).InvalidationEffective :=
  ⟨by decide +kernel, invalidation_effective Sample.webChain Sample.renewed (by decide +kernel)⟩

/-- The request went out at step 3, the invalidation was called at step 4 and returned at step 5,
and the call was made at step 10. -/
theorem invalidation_overtakes_request :
    ¬(Machine.run (ResolverState.next Sample.webChain) {}
      Sample.overtaken).InvalidationEffective := by
  intro h
  have hinv : (⟨⟨Sample.handle⟩, 4, some 5⟩ : InvalidateCall) ∈
      (Machine.run (ResolverState.next Sample.webChain) {} Sample.overtaken).invalidations := by
    decide +kernel
  have hcall : (⟨⟨Sample.handle⟩, 10, .returned (.ok (Sample.record, ⟨3, 0⟩)) 0⟩ : ResolveCall) ∈
      (Machine.run (ResolverState.next Sample.webChain) {} Sample.overtaken).calls := by
    decide +kernel
  have hle : 4 ≤ 3 := h _ hinv _ hcall ⟨rfl, 5, rfl, by decide⟩ _ _ _ rfl
  exact absurd hle (by decide)

end AgentExchange.Identity
