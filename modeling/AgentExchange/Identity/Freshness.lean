import AgentExchange.Identity.Invalidation

/-!
# Freshness of the answers

The fast path serves entries younger than the TTL. A caller that has waited is served
whatever is cached, however old. A stale entry may be served for one hour after its TTL.
-/
namespace AgentExchange.Identity

open Library

variable {chain : ResolverChain} {s : ResolverState}

/-- Answers are less than the TTL and one hour older than the upstream answer behind them, and
only the record whose ETag was sent is extended. -/
structure ResolverState.AnswersFresh (chain : ResolverChain) (s : ResolverState) : Prop where
  answers : ∀ call ∈ s.calls, ∀ record origin time,
    call.phase = .returned (.ok (record, origin)) time → time < origin.answered + chain.ttl + hour
  extensions : ∀ x ∈ s.extensions, ∃ tag, x.etag = some tag ∧ x.cached = some x.extended ∧
    x.extended.record.etag = some tag

/-- An entry is extended within an hour after the 304, which answers a request with an ETag; a
caller that has waited finds no entry past its TTL and one hour; and a leader returns its
record before that. -/
def Phase.Timely (chain : ResolverChain) (s : ResolverState) (handle : AgentId) : Phase → Prop
  | .extending _ etag _ origin =>
    s.cache.get handle ≠ none → etag.isSome ∧ s.now ≤ origin.answered + hour
  | .woken => ∀ e ∈ s.cache.get handle, s.now < e.origin.answered + chain.ttl + hour
  | .notifying _ (.ok (_, origin)) => s.now < origin.answered + chain.ttl + hour
  | _ => True

instance (handle : AgentId) : ∀ p : Phase, Decidable (p.Timely chain s handle)
  | .extending _ etag _ origin => inferInstanceAs (Decidable (s.cache.get handle ≠ none →
      etag.isSome ∧ s.now ≤ origin.answered + hour))
  | .woken => inferInstanceAs (Decidable (∀ e ∈ s.cache.get handle,
      s.now < e.origin.answered + chain.ttl + hour))
  | .notifying _ (.ok (_, origin)) =>
    inferInstanceAs (Decidable (s.now < origin.answered + chain.ttl + hour))
  | .notifying _ (.error _) | .start | .claiming | .joined _ | .waiting _ | .leading _
  | .fetching _ _ _ _ | .storing _ _ | .releasing _ _ | .returned _ _ | .dropped =>
    inferInstanceAs (Decidable True)

def ResolverStep.Timely (chain : ResolverChain) (s : ResolverState) : ResolverStep → Prop
  | .advance i _ => ∀ call ∈ s.calls[i]?, call.phase.Timely chain s call.handle
  | _ => True

instance : ∀ l : ResolverStep, Decidable (l.Timely chain s)
  | .advance i _ =>
    inferInstanceAs (Decidable (∀ call ∈ s.calls[i]?, call.phase.Timely chain s call.handle))
  | .resolve _ | .invalidate _ | .answer _ _ | .drop _ | .remove _ | .tick _ =>
    inferInstanceAs (Decidable True)

/-- Entries are dated at most an hour after the upstream answer behind them. -/
structure ResolverState.Fresh (chain : ResolverChain) (s : ResolverState) : Prop where
  grounded : s.Grounded
  entries : ∀ id e, s.cache.get id = some e → e.inserted ≤ e.origin.answered + hour
  fresh : s.AnswersFresh chain

namespace ResolverState.Fresh

theorem next_entries (h : s.Fresh chain) {l : ResolverStep} {u : ResolverState}
    (hacts : Acts chain s l u) (hl : l.Timely chain s) {id : AgentId} {e : CacheEntry}
    (he : u.cache.get id = some e) : e.inserted ≤ e.origin.answered + hour := by
  rcases hacts.cached he with he | ⟨i, order, call, rfl, hcall, -, ⟨n, hphase⟩ |
    ⟨n, etag, cached, origin, e', hphase, hget, rfl⟩⟩
  · exact h.entries id e he
  · have hg := h.grounded.calls call (List.mem_of_getElem? hcall)
    rw [ResolveCall.Grounded, hphase] at hg
    rw [hg.2.2]
    exact Nat.le_add_right _ _
  · have htimely := hl call hcall
    rw [hphase] at htimely
    exact (htimely (by rw [hget]; exact Option.some_ne_none e')).2

theorem next_answers (h : s.Fresh chain) {l : ResolverStep} {u : ResolverState}
    (hacts : Acts chain s l u) (hl : l.Timely chain s) : u.AnswersFresh chain := by
  constructor
  · intro c hc record origin time hphase
    rcases hacts.returns hc hphase with hc | ⟨rfl, i, order, call, rfl, hcall, -, -,
      ⟨e, hget, rfl, ⟨-, hyoung⟩ | hwoken⟩ | ⟨waiters, hnotifying⟩⟩
    · exact h.fresh.answers c hc record origin time hphase
    · have hdated := h.entries _ e hget
      omega
    · have htimely := hl call hcall
      rw [hwoken] at htimely
      exact htimely e hget
    · have htimely := hl call hcall
      rw [hnotifying] at htimely
      exact htimely
  · intro x hx
    rcases hacts.extensions hx with hx | ⟨i, order, call, n, origin, rfl, hcall, hphase, hget⟩
    · exact h.fresh.extensions x hx
    · have hg := h.grounded.calls call (List.mem_of_getElem? hcall)
      rw [ResolveCall.Grounded, hphase] at hg
      have hcached : x.cached = some x.extended := hg.2.same _ hget
      have htimely := hl call hcall
      rw [hphase] at htimely
      obtain ⟨tag, htag⟩ := Option.isSome_iff_exists.mp
        (htimely (by rw [hget]; exact Option.some_ne_none _)).1
      have hetag := hg.2.etag_eq
      rw [hcached, htag] at hetag
      exact ⟨tag, htag, hcached, hetag.symm⟩

theorem next (h : s.Fresh chain) (l : ResolverStep) (hl : l.Timely chain s) :
    (s.next chain l).Fresh chain := by
  have hacts := s.acts chain l
  refine ⟨h.grounded.next l, fun id e he => h.next_entries hacts hl he, ?_⟩
  exact ⟨(h.next_answers hacts hl).answers, (h.next_answers hacts hl).extensions⟩

theorem init : ResolverState.Fresh chain {} := by
  refine ⟨ResolverState.Grounded.init, ?_, ?_, ?_⟩
  · intro id e he
    cases he
  · intro call hcall
    cases hcall
  · intro x hx
    cases hx

end ResolverState.Fresh

namespace Sample

/-- Half an hour after its TTL the entry is revalidated. -/
def revalidated : List ResolverStep :=
  requested 0 ++ stored 0 ++ [.tick (hour + hour / 2)] ++ requested 1 ++
    [.answer 1 (.ok .notModified), .advance 1 [], .advance 1 [], .advance 1 []]

/-- Three hours later the upstream is down. The leader fails, and the caller that waited for it is
served the entry. -/
def outage : List ResolverStep :=
  requested 0 ++ stored 0 ++ [.tick (3 * hour)] ++ requested 1 ++
    [.resolve handle, .advance 2 [], .advance 2 [], .advance 2 [],
      .answer 1 (.error (.underlying handle "connection refused")), .advance 1 [], .advance 1 [],
      .advance 2 []]

end Sample

end AgentExchange.Identity
