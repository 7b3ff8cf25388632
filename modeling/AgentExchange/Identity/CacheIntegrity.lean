import AgentExchange.Identity.Invalidation

/-!
# Fingerprints that flip back

The comment in `fetch_and_update` says that a record is refused when its fingerprint is one that
the chain has seen before and that another has replaced since. Nothing keeps what was seen, and
a fresh record is stored whatever it is: the promise is kept in the runs in which no such record
comes to be stored. A run is watched by keeping the fingerprints beside it.
-/
namespace AgentExchange.Identity

open Library

/-- The history has the fingerprint, and a different one after it. -/
def flipsBack (seen : List String) (fingerprint : String) : Bool :=
  (seen.dropWhile (· ≠ fingerprint)).any (· ≠ fingerprint)

theorem flipsBack_iff {seen : List String} {fingerprint : String} :
    flipsBack seen fingerprint = true ↔
      ∃ a b, seen = a ++ fingerprint :: b ∧ ∃ other ∈ b, other ≠ fingerprint := by
  induction seen with
  | nil => simp [flipsBack]
  | cons first seen ih =>
    by_cases hfirst : first = fingerprint
    · subst hfirst
      have hany : flipsBack (first :: seen) first = true ↔ ∃ other ∈ seen, other ≠ first := by
        simp [flipsBack]
      rw [hany]
      constructor
      · intro h
        exact ⟨[], seen, rfl, h⟩
      · rintro ⟨a, b, hsplit, other, hother, hne⟩
        have hmem : other ∈ first :: seen := by
          rw [hsplit]
          exact List.mem_append_right a (List.mem_cons_of_mem _ hother)
        exact ⟨other, (List.mem_cons.mp hmem).resolve_left hne, hne⟩
    · have hskip : flipsBack (first :: seen) fingerprint = flipsBack seen fingerprint := by
        simp [flipsBack, hfirst]
      rw [hskip, ih]
      constructor
      · rintro ⟨a, b, rfl, hb⟩
        exact ⟨first :: a, b, rfl, hb⟩
      · rintro ⟨a, b, hsplit, hb⟩
        cases a with
        | nil =>
          cases hsplit
          exact absurd rfl hfirst
        | cons c a =>
          cases hsplit
          exact ⟨a, b, rfl, hb⟩

/-! ## Watched runs -/

/-- The chain, the fingerprints of the fresh answers for each handle, the calls whose answer flipped
back or was an error of the upstream, and those that stored a record that had flipped back. -/
structure Watch where
  state : ResolverState := {}
  seen : AgentId → List String := fun _ => []
  flipped : List ℕ := []
  failed : List ℕ := []
  replaced : List ℕ := []

namespace Watch

/-- The answer to a call that is waiting for it. -/
def noteAnswer (w : Watch) (i : ℕ) (handle : AgentId) : Except ResolverError ResolveOutcome → Watch
  | .ok (.fresh record) =>
    { w with
      seen := Function.update w.seen handle (w.seen handle ++ [record.fingerprint])
      flipped :=
        if flipsBack (w.seen handle) record.fingerprint then i :: w.flipped else w.flipped }
  | .ok .notModified => w
  | .error _ => { w with failed := i :: w.failed }

def note (w : Watch) : ResolverStep → Watch
  | .answer i outcome =>
    match w.state.calls[i]? with
    | some ⟨handle, _, .fetching _ _ _ _⟩ => w.noteAnswer i handle outcome
    | _ => w
  | .advance i _ =>
    match w.state.calls[i]? with
    | some ⟨_, _, .storing _ _⟩ =>
      if i ∈ w.flipped then { w with replaced := i :: w.replaced } else w
    | _ => w
  | _ => w

def next (chain : ResolverChain) (w : Watch) (l : ResolverStep) : Watch :=
  { w.note l with state := w.state.next chain l }

/-- A resolve whose fresh answer flips back is refused and stores nothing, and no other is
refused, unless the upstream failed it. -/
structure Detects (w : Watch) : Prop where
  refused : ∀ i ∈ w.flipped, ∀ call answer time, w.state.calls[i]? = some call →
    call.phase = .returned answer time →
      answer = .error (.cacheIntegrityViolation call.handle.asStr)
  kept : w.replaced = []
  silent : ∀ i call handle time, w.state.calls[i]? = some call →
    call.phase = .returned (.error (.cacheIntegrityViolation handle)) time →
      i ∈ w.flipped ∨ i ∈ w.failed

/-- A record that flipped back is not gone on with. -/
def Withholds (w : Watch) : ResolverStep → Prop
  | .advance i _ => i ∈ w.flipped → ∀ call ∈ w.state.calls[i]?, ∀ n entry,
    call.phase ≠ .storing n entry
  | _ => True

/-- Watching does not change the run. -/
theorem run_state (chain : ResolverChain) (w : Watch) (labels : List ResolverStep) :
    (Machine.run (next chain) w labels).state =
      Machine.run (ResolverState.next chain) w.state labels := by
  induction labels generalizing w with
  | nil => rfl
  | cons l labels ih => rw [Machine.run_cons, Machine.run_cons, ih, next]

end Watch

/-! ## What a call may carry -/

/-- The answer that a call is about to return or has returned. -/
def Phase.answer : Phase → Option Answer
  | .releasing _ answer => some answer
  | .notifying _ answer => some answer
  | .returned answer _ => some answer
  | _ => none

/-- The call is refused for its fingerprint. -/
def Phase.Refused (phase : Phase) : Prop :=
  ∃ handle, phase.answer = some (.error (.cacheIntegrityViolation handle))

/-- A record that is not stored, or will not be. -/
def Phase.Held (phase : Phase) : Prop := (∃ n entry, phase = .storing n entry) ∨ phase = .dropped

variable {chain : ResolverChain} {s : ResolverState} {i : ℕ} {order : List AgentId}
  {call : ResolveCall}

theorem ResolveCall.wake_cases (waiters : Option ℕ) (call : ResolveCall) :
    call.wake waiters = call ∨
      (∃ n, call.phase = .waiting n) ∧ call.wake waiters = { call with phase := .woken } := by
  obtain ⟨handle, began, phase⟩ := call
  cases phase with
  | waiting n =>
    simp only [wake]
    split_ifs
    · exact .inr ⟨⟨n, rfl⟩, rfl⟩
    · exact .inl rfl
  | _ => exact .inl rfl

theorem map_wake_none (calls : List ResolveCall) :
    calls.map (ResolveCall.wake none) = calls := by
  have hwake (call : ResolveCall) : call.wake none = call := by
    rcases call.wake_cases none with h | ⟨⟨n, hphase⟩, -⟩
    · exact h
    · rw [ResolveCall.wake, hphase]
      rfl
  simp [funext hwake]

/-- What becomes of the calls when one goes on: it has a new phase, in which it is refused only if
it was before, and others may be woken; or nothing happens. -/
inductive Goes (calls : List ResolveCall) (i : ℕ) (call : ResolveCall) :
    List ResolveCall → Prop
  | stays : Goes calls i call calls
  | on (phase : Phase) (waiters : Option ℕ) (hdropped : call.phase ≠ .dropped)
      (hrefused : phase.Refused → call.phase.Refused) :
      Goes calls i call
        ((calls.map (ResolveCall.wake waiters)).set i { call with phase := phase })

theorem Goes.alone {calls : List ResolveCall} (phase : Phase) (hdropped : call.phase ≠ .dropped)
    (hrefused : phase.Refused → call.phase.Refused) :
    Goes calls i call (calls.set i { call with phase := phase }) := by
  have hgoes : Goes calls i call _ := Goes.on phase none hdropped hrefused
  rwa [map_wake_none] at hgoes

theorem not_refused {phase : Phase}
    (h : ∀ handle, phase.answer ≠ some (.error (.cacheIntegrityViolation handle))) :
    phase.Refused → call.phase.Refused := by
  rintro ⟨handle, hanswer⟩
  exact absurd hanswer (h handle)

theorem ResolverState.goes_advance (s : ResolverState) (i : ℕ) (order : List AgentId)
    (call : ResolveCall) : Goes s.calls i call (s.advance chain i order call).calls := by
  rw [ResolverState.advance]
  cases hphase : call.phase with
  | start =>
    have hdropped : call.phase ≠ .dropped := by simp [hphase]
    dsimp only
    cases s.cacheGetFresh chain call.handle with
    | some e => exact .alone _ hdropped (not_refused (by simp [Phase.answer]))
    | none => exact .alone _ hdropped (not_refused (by simp [Phase.answer]))
  | claiming =>
    have hdropped : call.phase ≠ .dropped := by simp [hphase]
    dsimp only
    cases s.inflight call.handle with
    | some n => exact .alone _ hdropped (not_refused (by simp [Phase.answer]))
    | none => exact .alone _ hdropped (not_refused (by simp [Phase.answer]))
  | joined n => exact .alone _ (by simp [hphase]) (not_refused (by simp [Phase.answer]))
  | waiting n => exact .stays
  | woken =>
    have hdropped : call.phase ≠ .dropped := by simp [hphase]
    dsimp only
    cases s.cache.get call.handle with
    | some e => exact .alone _ hdropped (not_refused (by simp [Phase.answer]))
    | none => exact .alone _ hdropped (not_refused (by simp [Phase.answer]))
  | leading n =>
    have hdropped : call.phase ≠ .dropped := by simp [hphase]
    dsimp only
    split_ifs
    · exact .alone _ hdropped (not_refused (by simp [Phase.answer]))
    · exact .alone _ hdropped (not_refused (by simp [Phase.answer]))
  | fetching n etag cached sent => exact .stays
  | storing n entry => exact .alone _ (by simp [hphase]) (not_refused (by simp [Phase.answer]))
  | extending n etag cached origin =>
    have hdropped : call.phase ≠ .dropped := by simp [hphase]
    dsimp only
    cases s.cache.get call.handle with
    | some e => exact .alone _ hdropped (not_refused (by simp [Phase.answer]))
    | none => exact .alone _ hdropped (not_refused (by simp [Phase.answer]))
  | releasing n answer =>
    apply Goes.alone _ (by simp [hphase])
    rw [hphase]
    exact id
  | notifying waiters answer =>
    apply Goes.on _ waiters (by simp [hphase])
    rw [hphase]
    exact id
  | returned answer time => exact .stays
  | dropped => exact .stays

/-! ## The invariant -/

namespace Watch

/-- A call whose answer flipped back holds its record, and only an upstream failure refuses one. -/
structure Holds (w : Watch) : Prop where
  held : ∀ i ∈ w.flipped, ∃ call, w.state.calls[i]? = some call ∧ call.phase.Held
  kept : w.replaced = []
  refused : ∀ i call, w.state.calls[i]? = some call → call.phase.Refused → i ∈ w.failed

theorem Holds.init : Holds {} := by
  constructor
  · intro i hi
    cases hi
  · rfl
  · intro i call hcall
    cases hcall

/-- A watched state that holds back detects. -/
theorem Holds.detects {w : Watch} (h : w.Holds) : w.Detects := by
  constructor
  · intro i hi call answer time hcall hphase
    obtain ⟨c, hc, hheld⟩ := h.held i hi
    cases hcall.symm.trans hc
    rw [hphase] at hheld
    rcases hheld with ⟨n, entry, hstoring⟩ | hdropped
    · cases hstoring
    · cases hdropped
  · exact h.kept
  · intro i call handle time hcall hphase
    refine .inr (h.refused i call hcall ⟨handle, ?_⟩)
    rw [hphase]
    rfl

/-- A step that holds on to the records held, and refuses no call by itself. -/
theorem Holds.of_calls {w : Watch} (h : w.Holds) (t : ResolverState)
    (hheld : ∀ (i : ℕ) (call : ResolveCall), i ∈ w.flipped → w.state.calls[i]? = some call →
      call.phase.Held → ∃ c : ResolveCall, t.calls[i]? = some c ∧ c.phase.Held)
    (hrefused : ∀ (i : ℕ) (call : ResolveCall), t.calls[i]? = some call → call.phase.Refused →
      ∃ c : ResolveCall, w.state.calls[i]? = some c ∧ c.phase.Refused) :
    Holds { w with state := t } := by
  constructor
  · intro i hi
    obtain ⟨call, hcall, hcheld⟩ := h.held i hi
    exact hheld i call hi hcall hcheld
  · exact h.kept
  · intro i call hcall hcrefused
    obtain ⟨c, hc, hcrefused'⟩ := hrefused i call hcall hcrefused
    exact h.refused i c hc hcrefused'

theorem Holds.of_same {w : Watch} (h : w.Holds) {t : ResolverState}
    (ht : t.calls = w.state.calls) : Holds { w with state := t } := by
  apply h.of_calls
  · intro i call _ hcall hheld
    exact ⟨call, by rw [ht, hcall], hheld⟩
  · intro i call hcall hrefused
    exact ⟨call, by rw [← ht, hcall], hrefused⟩

theorem Holds.resolve {w : Watch} (h : w.Holds) (handle : String) :
    (w.next chain (.resolve handle)).Holds := by
  have hnew : ∃ c : ResolveCall, (w.state.next chain (.resolve handle)).calls =
      w.state.calls ++ [c] ∧ ¬c.phase.Refused := by
    simp only [ResolverState.next, ResolverState.act]
    cases AgentId.new handle with
    | ok id => exact ⟨_, rfl, by rintro ⟨_, hanswer⟩; cases hanswer⟩
    | error e => exact ⟨_, rfl, by rintro ⟨_, hanswer⟩; cases hanswer⟩
  obtain ⟨c, hcalls, hc⟩ := hnew
  apply h.of_calls
  · intro i call _ hcall hheld
    refine ⟨call, ?_, hheld⟩
    rw [hcalls, List.getElem?_append_left (List.getElem?_eq_some_iff.mp hcall).1, hcall]
  · intro i call hcall hrefused
    rw [hcalls, List.getElem?_append] at hcall
    split_ifs at hcall
    · exact ⟨call, hcall, hrefused⟩
    · have hmem := List.mem_of_getElem? hcall
      rw [List.mem_singleton.mp hmem] at hrefused
      exact absurd hrefused hc

/-- A call with a new phase holds its record if the phase does; the others as before. -/
theorem held_setPhase {t : ResolverState} {i j : ℕ} {call c : ResolveCall} {phase : Phase}
    (hi : t.calls[i]? = some call) (hc : t.calls[j]? = some c) (hheld : c.phase.Held)
    (hphase : j = i → phase.Held) :
    ∃ c : ResolveCall, (t.setPhase i call phase).calls[j]? = some c ∧ c.phase.Held := by
  by_cases hij : i = j
  · subst hij
    refine ⟨{ call with phase := phase }, ?_, hphase rfl⟩
    rw [ResolverState.setPhase, List.getElem?_set_self (List.getElem?_eq_some_iff.mp hi).1]
  · refine ⟨c, ?_, hheld⟩
    rw [ResolverState.setPhase, List.getElem?_set_ne hij, hc]

theorem Holds.drop {w : Watch} (h : w.Holds) (i : ℕ) : (w.next chain (.drop i)).Holds := by
  change Holds { w with state := w.state.next chain (.drop i) }
  rw [ResolverState.next, ResolverState.act]
  cases hi : w.state.calls[i]? with
  | none => exact h.of_same rfl
  | some call =>
    dsimp only
    split_ifs with hawaits
    · apply h.of_calls
      · intro j c _ hc hheld
        exact held_setPhase hi hc hheld fun _ => .inr rfl
      · intro j c hc hrefused
        rcases ResolverState.getElem?_setPhase hc with ⟨rfl, rfl⟩ | ⟨-, hc⟩
        · obtain ⟨_, hanswer⟩ := hrefused
          cases hanswer
        · exact ⟨c, hc, hrefused⟩
    · exact h.of_same rfl

/-- An answer leaves the record of its call to be stored or extended, or fails it. -/
theorem Holds.answered {w : Watch} (h : w.Holds) {i : ℕ} {call : ResolveCall}
    (hi : w.state.calls[i]? = some call) (hnew : ¬call.phase.Held) (phase : Phase)
    {flipped failed : List ℕ} (seen : AgentId → List String)
    (hflipped : ∀ j ∈ flipped, j ∈ w.flipped ∨ j = i ∧ phase.Held)
    (hfailed : ∀ j ∈ w.failed, j ∈ failed) (hrefused : phase.Refused → i ∈ failed)
    {t : ResolverState} (ht : t.calls = (w.state.setPhase i call phase).calls) :
    Holds ⟨t, seen, flipped, failed, w.replaced⟩ := by
  constructor
  · intro j hj
    dsimp only
    rw [ht]
    rcases hflipped j hj with hj | ⟨rfl, hheld⟩
    · obtain ⟨c, hc, hheld⟩ := h.held j hj
      apply held_setPhase hi hc hheld
      rintro rfl
      cases hi.symm.trans hc
      exact absurd hheld hnew
    · refine ⟨{ call with phase := phase }, ?_, hheld⟩
      rw [ResolverState.setPhase, List.getElem?_set_self (List.getElem?_eq_some_iff.mp hi).1]
  · exact h.kept
  · intro j c hc hcrefused
    dsimp only at hc
    rw [ht] at hc
    rcases ResolverState.getElem?_setPhase hc with ⟨rfl, rfl⟩ | ⟨-, hc⟩
    · exact hrefused hcrefused
    · exact hfailed j (h.refused j c hc hcrefused)

theorem Holds.answer {w : Watch} (h : w.Holds) (i : ℕ)
    (outcome : Except ResolverError ResolveOutcome) :
    (w.next chain (.answer i outcome)).Holds := by
  have hidle (hw : w.note (.answer i outcome) = w)
      (hs : w.state.act chain (.answer i outcome) = w.state) :
      (w.next chain (.answer i outcome)).Holds := by
    rw [next, hw, ResolverState.next, hs]
    exact h.of_same rfl
  cases hi : w.state.calls[i]? with
  | none => exact hidle (by simp only [note, hi]) (by simp only [ResolverState.act, hi])
  | some call =>
    obtain ⟨handle, began, phase⟩ := call
    cases phase with
    | fetching n etag cached sent =>
      have hnew : ¬Phase.Held (.fetching n etag cached sent) := by
        rintro (⟨_, _, hphase⟩ | hphase) <;> cases hphase
      have hnext : w.next chain (.answer i outcome) = { w.noteAnswer i handle outcome with
          state := w.state.next chain (.answer i outcome) } := by
        simp only [next, note, hi]
      have hcalls : (w.state.next chain (.answer i outcome)).calls =
          (w.state.setPhase i ⟨handle, began, .fetching n etag cached sent⟩
            (w.state.answered n etag cached sent outcome)).calls := by
        simp only [ResolverState.next, ResolverState.act, hi]
      rw [hnext]
      cases outcome with
      | error e =>
        apply h.answered hi hnew (.releasing n (.error e)) _ _ _ _ hcalls
        · exact fun j hj => .inl hj
        · exact fun j hj => List.mem_cons_of_mem _ hj
        · exact fun _ => List.mem_cons_self
      | ok outcome =>
        cases outcome with
        | notModified =>
          apply h.answered hi hnew (.extending n etag cached ⟨sent, w.state.now⟩) _ _ _ _ hcalls
          · exact fun j hj => .inl hj
          · exact fun j hj => hj
          · rintro ⟨_, hanswer⟩
            cases hanswer
        | fresh record =>
          apply h.answered hi hnew (.storing n ⟨record, w.state.now, ⟨sent, w.state.now⟩⟩) _ _ _ _
            hcalls
          · intro j hj
            dsimp only [noteAnswer] at hj
            split_ifs at hj
            · exact (List.mem_cons.mp hj).symm.imp_right fun hji => ⟨hji, .inl ⟨_, _, rfl⟩⟩
            · exact .inl hj
          · exact fun j hj => hj
          · rintro ⟨_, hanswer⟩
            cases hanswer
    | _ => exact hidle (by simp only [note, hi]) (by simp only [ResolverState.act, hi])

/-- A step of a call that holds no record that flipped back. -/
theorem Holds.goes {w : Watch} (h : w.Holds) {call : ResolveCall}
    (hi : w.state.calls[i]? = some call)
    (hl : i ∈ w.flipped → ∀ n entry, call.phase ≠ .storing n entry) {t : ResolverState}
    (ht : Goes w.state.calls i call t.calls) : Holds { w with state := t } := by
  generalize hcalls : t.calls = calls at ht
  cases ht with
  | stays => exact h.of_same hcalls
  | on phase waiters hdropped hrefused =>
    apply h.of_calls
    · intro j c hj hc hheld
      rw [hcalls]
      by_cases hij : i = j
      · subst hij
        cases hi.symm.trans hc
        rcases hheld with ⟨n, entry, hstoring⟩ | hphase
        · exact absurd hstoring (hl hj n entry)
        · exact absurd hphase hdropped
      · refine ⟨c.wake waiters, ?_, ?_⟩
        · rw [List.getElem?_set_ne hij, List.getElem?_map, hc]
          rfl
        · rcases c.wake_cases waiters with hwake | ⟨⟨n, hphase⟩, -⟩
          · rw [hwake]
            exact hheld
          · rw [hphase] at hheld
            rcases hheld with ⟨_, _, hstoring⟩ | hdropped
            · cases hstoring
            · cases hdropped
    · intro j c hc hcrefused
      rw [hcalls] at hc
      by_cases hij : i = j
      · subst hij
        have hlt : i < (w.state.calls.map (ResolveCall.wake waiters)).length := by
          rw [List.length_map]
          exact (List.getElem?_eq_some_iff.mp hi).1
        rw [List.getElem?_set_self hlt, Option.some_inj] at hc
        subst hc
        exact ⟨call, hi, hrefused hcrefused⟩
      · rw [List.getElem?_set_ne hij, List.getElem?_map, Option.map_eq_some_iff] at hc
        obtain ⟨b, hb, rfl⟩ := hc
        rcases b.wake_cases waiters with hwake | ⟨-, hwake⟩
        · rw [hwake] at hcrefused
          exact ⟨b, hb, hcrefused⟩
        · rw [hwake] at hcrefused
          obtain ⟨_, hanswer⟩ := hcrefused
          cases hanswer

theorem Holds.advance {w : Watch} (h : w.Holds) (i : ℕ) (order : List AgentId)
    (hl : w.Withholds (.advance i order)) : (w.next chain (.advance i order)).Holds := by
  cases hi : w.state.calls[i]? with
  | none =>
    have hnext : w.next chain (.advance i order) =
        { w with state := { w.state with step := w.state.step + 1 } } := by
      simp only [next, note, ResolverState.next, ResolverState.act, hi]
    rw [hnext]
    exact h.of_same rfl
  | some call =>
    have hheld : i ∈ w.flipped → ∀ n entry, call.phase ≠ .storing n entry :=
      fun hflipped => hl hflipped call hi
    have hnote : w.note (.advance i order) = w := by
      obtain ⟨handle, began, phase⟩ := call
      cases phase with
      | storing n entry =>
        have hnot : i ∉ w.flipped := fun hflipped => hheld hflipped n entry rfl
        simp only [note, hi, if_neg hnot]
      | _ => simp only [note, hi]
    have hstate : (w.state.next chain (.advance i order)).calls =
        (w.state.advance chain i order call).calls := by
      simp only [ResolverState.next, ResolverState.act, hi]
    rw [next, hnote]
    apply h.goes hi hheld
    rw [hstate]
    exact w.state.goes_advance i order call

/-- A step that withholds what flipped back keeps on holding it. -/
theorem Holds.next {w : Watch} (h : w.Holds) (l : ResolverStep) (hl : w.Withholds l) :
    (w.next chain l).Holds := by
  cases l with
  | resolve handle => exact h.resolve handle
  | invalidate handle =>
    apply h.of_same
    simp only [ResolverState.next, ResolverState.act]
    cases AgentId.new handle <;> rfl
  | advance i order => exact h.advance i order hl
  | answer i outcome => exact h.answer i outcome
  | drop i => exact h.drop i
  | remove i =>
    apply h.of_same
    simp only [ResolverState.next, ResolverState.act]
    split <;> rfl
  | tick duration => exact h.of_same rfl

/-- A step that goes on with it is not detected. -/
theorem not_detects_of_not_withholds {w : Watch} {l : ResolverStep} (hl : ¬w.Withholds l) :
    ¬(w.next chain l).Detects := by
  intro hdetects
  apply hl
  cases l with
  | advance i order =>
    rintro hflipped ⟨handle, began, phase⟩ hcall n entry hphase
    cases hphase
    have hcall' : w.state.calls[i]? = some ⟨handle, began, .storing n entry⟩ := hcall
    have hkept : (w.note (.advance i order)).replaced = [] := hdetects.kept
    simp only [note, hcall', if_pos hflipped] at hkept
    cases hkept
  | _ => trivial

/-- Every flip-back is detected, and no other record refused, throughout just the runs in which no
record that flipped back is gone on with. -/
theorem detects_iff_withholds (chain : ResolverChain) (labels : List ResolverStep) :
    (∀ done, done <+: labels → (Machine.run (next chain) {} done).Detects) ↔
      Machine.Along (next chain) Withholds {} labels := by
  apply Machine.everywhere_iff_along (H := fun _ _ => True) (I := Holds)
  · exact Machine.along_true _ _
  · exact Holds.init
  · exact fun w hw => hw.detects
  · exact fun w l hw _ hl => hw.next l hl
  · exact fun w l _ _ hl => not_detects_of_not_withholds hl

end Watch

namespace Sample

/-- The handle is requested, answered with a fingerprint and returned; an hour later it is stale. -/
def refreshed (i : ℕ) (fingerprint : String) : List ResolverStep :=
  requested i ++ [.answer i (.ok (.fresh { record with fingerprint := fingerprint }))] ++
    [.advance i [], .advance i [], .advance i [], .tick hour]

def flippedBack : List ResolverStep := refreshed 0 "a1" ++ refreshed 1 "b2" ++ refreshed 2 "a1"

end Sample

/-- The third resolve is served the first record again, which replaces the second. -/
theorem flip_back_undetected :
    let w := Machine.run (Watch.next Sample.webChain) {} Sample.flippedBack
    w.seen ⟨Sample.handle⟩ = ["a1", "b2", "a1"] ∧ w.flipped = [2] ∧
      w.state.calls[2]?.map ResolveCall.phase =
        some (.returned (.ok (Sample.record, ⟨21, 2 * hour⟩)) (2 * hour)) ∧
      (w.state.cache.get ⟨Sample.handle⟩).map CacheEntry.record = some Sample.record ∧
      ¬w.Detects := by
  intro w
  have hflipped : w.flipped = [2] := by decide +kernel
  have hreplaced : w.replaced = [2] := by decide +kernel
  refine ⟨by decide +kernel, hflipped, by decide +kernel, by decide +kernel, ?_⟩
  intro h
  cases hreplaced.symm.trans h.kept

end AgentExchange.Identity
