import AgentExchange.Library.StableSort
import AgentExchange.Sdk.Clients

/-!
# Falling back along the endpoints of a transfer

`endpoint.py` and `endpoint.ts`: a recipient walks the endpoints in the sender's order
of priority, skips those it cannot dial, and stops at the first that works. What an
attempt does may depend on everything done before it, so attempts pass a state along.
-/
namespace AgentExchange

open Library

namespace Sdk

variable {E E' τ τ' V V' σ : Type}

structure FallbackAttempt (E τ : Type) where
  endpoint : E
  error : Option τ := none
  skippedReason : Option τ := none
  ok : Bool := false

structure FallbackResult (E τ V : Type) where
  value : Option V := none
  chosen : Option E := none
  attempts : List (FallbackAttempt E τ) := []

/-- What the loop is run with: why an endpoint is skipped, what an attempt answers (an error by its
message), and the optional callback on skipped endpoints. -/
structure Dialer (E τ V σ : Type) where
  skipReason : E → Option τ
  attempt : E → σ → Except τ V × σ
  onSkip : Option (E → τ → σ → σ) := none

def notify (onSkip : Option (E → τ → σ → σ)) (ep : E) (reason : τ) (s : σ) : σ :=
  match onSkip with
  | none => s
  | some onSkip => onSkip ep reason s

namespace Dialer

def record (a : FallbackAttempt E τ) (r : FallbackResult E τ V × σ) : FallbackResult E τ V × σ :=
  ({ r.1 with attempts := a :: r.1.attempts }, r.2)

/-- The loop over the ordered endpoints. -/
def walk (d : Dialer E τ V σ) : List E → σ → FallbackResult E τ V × σ
  | [], s => ({}, s)
  | ep :: rest, s =>
    match d.skipReason ep with
    | some reason =>
      record { endpoint := ep, skippedReason := some reason }
        (d.walk rest (notify d.onSkip ep reason s))
    | none =>
      match d.attempt ep s with
      | (.ok value, s) => (⟨some value, some ep, [{ endpoint := ep, ok := true }]⟩, s)
      | (.error message, s) => record { endpoint := ep, error := some message } (d.walk rest s)

/-! ## What the loop records -/

/-- The attempts are what the dialer answered, one after the other, from the state `s` to `s'`; after
a success there is no further one. -/
inductive Trail (d : Dialer E τ V σ) : List (FallbackAttempt E τ) → σ → σ → Prop
  | nil {s} : Trail d [] s s
  | skipped {ep reason attempts s s'} : d.skipReason ep = some reason →
      Trail d attempts (notify d.onSkip ep reason s) s' →
      Trail d ({ endpoint := ep, skippedReason := some reason } :: attempts) s s'
  | failed {ep message attempts s s₁ s'} : d.skipReason ep = none →
      d.attempt ep s = (.error message, s₁) → Trail d attempts s₁ s' →
      Trail d ({ endpoint := ep, error := some message } :: attempts) s s'
  | succeeded {ep value s s'} : d.skipReason ep = none → d.attempt ep s = (.ok value, s') →
      Trail d [{ endpoint := ep, ok := true }] s s'

/-- What the loop returns for the ordered endpoints. -/
structure Walked (d : Dialer E τ V σ) (ordered : List E) (s : σ)
    (r : FallbackResult E τ V × σ) : Prop where
  trail : Trail d r.1.attempts s r.2
  covers : r.1.attempts.map (·.endpoint) <+: ordered
  exhausted : r.1.chosen = none →
    r.1.attempts.map (·.endpoint) = ordered ∧ ∀ a ∈ r.1.attempts, a.ok = false
  chosen : ∀ ep, r.1.chosen = some ep →
    ∃ before, r.1.attempts = before ++ [{ endpoint := ep, ok := true }] ∧
      ∀ a ∈ before, a.ok = false
  first : ∀ works : E → Bool, (∀ ep s, (d.attempt ep s).1.isOk = works ep) →
    r.1.chosen = ordered.find? fun ep => (d.skipReason ep).isNone && works ep

/-- An entry says for every endpoint whether it was skipped. -/
theorem Trail.skippedReason {d : Dialer E τ V σ} {attempts : List (FallbackAttempt E τ)} {s s' : σ}
    (h : Trail d attempts s s') : ∀ a ∈ attempts, a.skippedReason = d.skipReason a.endpoint := by
  induction h with
  | nil => simp
  | skipped hskip _ ih => exact List.forall_mem_cons.mpr ⟨hskip.symm, ih⟩
  | failed hskip _ _ ih => exact List.forall_mem_cons.mpr ⟨hskip.symm, ih⟩
  | succeeded hskip _ => exact List.forall_mem_cons.mpr ⟨hskip.symm, by simp⟩

/-- One endpoint that was not chosen goes in front. -/
theorem Walked.record {d : Dialer E τ V σ} {ordered : List E} {s s₁ : σ}
    {r : FallbackResult E τ V × σ} {a : FallbackAttempt E τ} (h : Walked d ordered s₁ r)
    (hok : a.ok = false) (htrail : Trail d (a :: r.1.attempts) s r.2)
    (hfirst : ∀ works : E → Bool, (∀ ep s, (d.attempt ep s).1.isOk = works ep) →
      ((d.skipReason a.endpoint).isNone && works a.endpoint) = false) :
    Walked d (a.endpoint :: ordered) s (Dialer.record a r) where
  trail := htrail
  covers := List.cons_prefix_cons.mpr ⟨rfl, h.covers⟩
  exhausted hnone := by
    obtain ⟨hall, hfailed⟩ := h.exhausted hnone
    exact ⟨congrArg (a.endpoint :: ·) hall, List.forall_mem_cons.mpr ⟨hok, hfailed⟩⟩
  chosen ep hep := by
    obtain ⟨before, hbefore, hfailed⟩ := h.chosen ep hep
    exact ⟨a :: before, congrArg (a :: ·) hbefore, List.forall_mem_cons.mpr ⟨hok, hfailed⟩⟩
  first works hworks := by
    rw [List.find?_cons_of_neg (by simp [hfirst works hworks])]
    exact h.first works hworks

theorem walked_walk (d : Dialer E τ V σ) (ordered : List E) (s : σ) :
    Walked d ordered s (d.walk ordered s) := by
  induction ordered generalizing s with
  | nil =>
    exact ⟨.nil, List.nil_prefix, fun _ => ⟨rfl, by simp [walk]⟩, by simp [walk], by simp [walk]⟩
  | cons ep rest ih =>
    unfold walk
    cases hskip : d.skipReason ep with
    | some reason =>
      exact (ih _).record rfl (.skipped hskip (ih _).trail) (by simp [hskip])
    | none =>
      rcases hanswer : d.attempt ep s with ⟨message | value, s₁⟩
      · refine (ih s₁).record rfl (.failed hskip hanswer (ih s₁).trail) fun works hworks => ?_
        have hfails := hworks ep s
        rw [hanswer] at hfails
        simp [← hfails, Except.isOk, Except.toBool]
      · refine ⟨.succeeded hskip hanswer, ⟨rest, rfl⟩, by simp, ?_, fun works hworks => ?_⟩
        · rintro _ ⟨⟩
          exact ⟨[], rfl, by simp⟩
        · have hsucceeds := hworks ep s
          rw [hanswer] at hsucceeds
          rw [List.find?_cons_of_pos (by simp [hskip, ← hsucceeds, Except.isOk, Except.toBool])]

end Dialer

/-! ## Two loops over one list -/

/-- The same entry, up to the words of an error or of a reason. -/
structure SameAttempt (R : E → E' → Prop) (a : FallbackAttempt E τ) (b : FallbackAttempt E' τ') :
    Prop where
  endpoint : R a.endpoint b.endpoint
  failed : a.error.isSome = b.error.isSome
  skipped : a.skippedReason.isSome = b.skippedReason.isSome
  ok : a.ok = b.ok

structure SameResult (R : E → E' → Prop) (r : FallbackResult E τ V × σ)
    (r' : FallbackResult E' τ' V' × σ) : Prop where
  state : r.2 = r'.2
  attempts : List.Forall₂ (SameAttempt R) r.1.attempts r'.1.attempts
  chosen : Option.Rel R r.1.chosen r'.1.chosen
  value : r.1.value.isSome = r'.1.value.isSome

/-- On related endpoints both dialers skip alike, succeed alike and have the same effects. -/
structure SameDialer (R : E → E' → Prop) (d : Dialer E τ V σ) (d' : Dialer E' τ' V' σ) : Prop where
  skip : ∀ {ep ep'}, R ep ep' → (d.skipReason ep).isSome = (d'.skipReason ep').isSome
  attempt : ∀ {ep ep'}, R ep ep' → ∀ s, (d.attempt ep s).1.isOk = (d'.attempt ep' s).1.isOk ∧
    (d.attempt ep s).2 = (d'.attempt ep' s).2
  notify : ∀ {ep ep'}, R ep ep' → ∀ reason reason' s,
    notify d.onSkip ep reason s = notify d'.onSkip ep' reason' s

theorem SameResult.record {R : E → E' → Prop} {r : FallbackResult E τ V × σ}
    {r' : FallbackResult E' τ' V' × σ} (h : SameResult R r r') {a : FallbackAttempt E τ}
    {b : FallbackAttempt E' τ'} (hab : SameAttempt R a b) :
    SameResult R (Dialer.record a r) (Dialer.record b r') :=
  ⟨h.state, .cons hab h.attempts, h.chosen, h.value⟩

theorem SameDialer.walk {R : E → E' → Prop} {d : Dialer E τ V σ} {d' : Dialer E' τ' V' σ}
    (hd : SameDialer R d d') {xs : List E} {ys : List E'} (h : List.Forall₂ R xs ys) (s : σ) :
    SameResult R (d.walk xs s) (d'.walk ys s) := by
  induction h generalizing s with
  | nil => exact ⟨rfl, .nil, .none, rfl⟩
  | @cons x y xs ys hxy _ ih =>
    have hskip := hd.skip hxy
    unfold Dialer.walk
    cases hx : d.skipReason x with
    | some reason =>
      cases hy : d'.skipReason y with
      | none => simp [hx, hy] at hskip
      | some reason' =>
        dsimp only
        rw [hd.notify hxy reason reason' s]
        exact (ih _).record ⟨hxy, rfl, rfl, rfl⟩
    | none =>
      cases hy : d'.skipReason y with
      | some reason' => simp [hx, hy] at hskip
      | none =>
        obtain ⟨hok, hstate⟩ := hd.attempt hxy s
        rcases hanswer : d.attempt x s with ⟨message | value, s₁⟩ <;>
        rcases hanswer' : d'.attempt y s with ⟨message' | value', s₁'⟩ <;>
        rw [hanswer, hanswer'] at hok hstate <;>
        cases hstate
        · exact (ih _).record ⟨hxy, rfl, rfl, rfl⟩
        · cases hok
        · cases hok
        · exact ⟨rfl, .cons ⟨hxy, rfl, rfl, rfl⟩ .nil, .some hxy, rfl⟩

end Sdk

/-! ## The Python SDK -/

namespace Python

open Sdk

variable {V σ : Type}

def knownKinds : List String :=
  [Endpoint.kindCloudflareQuick, Endpoint.kindCloudflareNamed, Endpoint.kindIroh,
    Endpoint.kindTailscaleFunnel, Endpoint.kindFrp]

/-- The kinds this SDK can dial today. -/
def httpKinds : List String :=
  [Endpoint.kindCloudflareQuick, Endpoint.kindCloudflareNamed, Endpoint.kindTailscaleFunnel,
    Endpoint.kindFrp]

def Endpoint.isKnownKind (ep : Endpoint) : Bool := knownKinds.contains ep.kind

def Endpoint.isHttpDialable (ep : Endpoint) : Bool := httpKinds.contains ep.kind

/-- `sorted` is stable. -/
def sortByPriority (endpoints : List Endpoint) : List Endpoint :=
  endpoints.mergeSort fun a b => a.priority ≤ b.priority

/-- `repr` is the built-in that quotes a string. -/
def skipReason (repr : String → String) (ep : Endpoint) : Option String :=
  if !ep.isKnownKind then some ("unknown kind: " ++ repr ep.kind)
  else if !ep.isHttpDialable then some (ep.kind ++ " is not HTTP-dialable from this SDK yet")
  else none

def tryEndpoints (repr : String → String) (endpoints : List Endpoint)
    (attempt : Endpoint → σ → Except String V × σ)
    (onSkip : Option (Endpoint → String → σ → σ)) (s : σ) : FallbackResult Endpoint String V × σ :=
  Dialer.walk ⟨skipReason repr, attempt, onSkip⟩ (sortByPriority endpoints) s

theorem skipReason_eq_none {repr : String → String} {ep : Endpoint} :
    skipReason repr ep = none ↔ ep.isHttpDialable = true := by
  have hknown : ep.isHttpDialable = true → ep.isKnownKind = true := by
    simp only [Endpoint.isHttpDialable, Endpoint.isKnownKind, List.contains_iff_mem]
    exact fun h => (show httpKinds ⊆ knownKinds by decide) h
  unfold skipReason
  cases hdial : ep.isHttpDialable with
  | true => simp [hknown hdial]
  | false => cases ep.isKnownKind <;> simp

theorem isStableSort_sortByPriority (endpoints : List Endpoint) :
    IsStableSort Endpoint.priority endpoints (sortByPriority endpoints) :=
  isStableSort_mergeSort (by simp) endpoints

end Python

/-! ## The TypeScript SDK -/

namespace TypeScript

open Sdk

variable {V σ : Type}

def knownKinds : List JsString :=
  [js Endpoint.kindCloudflareQuick, js Endpoint.kindCloudflareNamed, js Endpoint.kindIroh,
    js Endpoint.kindTailscaleFunnel, js Endpoint.kindFrp]

/-- The kinds this SDK can dial today. -/
def httpKinds : List JsString :=
  [js Endpoint.kindCloudflareQuick, js Endpoint.kindCloudflareNamed, js Endpoint.kindTailscaleFunnel,
    js Endpoint.kindFrp]

def isKnownKind (ep : Endpoint) : Bool := knownKinds.contains ep.kind

def isHttpDialable (ep : Endpoint) : Bool := httpKinds.contains ep.kind

/-- An endpoint as it comes from the wire, where the priority is an `i32`. -/
structure RankedEndpoint extends Endpoint where
  rank : Int32
  priority_eq : priority = .decimal rank.toInt

theorem natAbs_sub_le (x y : Int32) : (x.toInt - y.toInt).natAbs ≤ JsNumber.maxSafeInteger := by
  have hx := x.toInt_lt
  have hx' := x.le_toInt
  have hy := y.toInt_lt
  have hy' := y.le_toInt
  unfold JsNumber.maxSafeInteger
  omega

/-- `(a, b) => a.priority - b.priority`. -/
def comparePriority (a b : RankedEndpoint) : JsNumber :=
  .ofInt (a.rank.toInt - b.rank.toInt) (natAbs_sub_le a.rank b.rank)

/-- `Array.sort` is stable: the first stays in front unless the second compares as less. -/
def sortByPriority (endpoints : List RankedEndpoint) : List RankedEndpoint :=
  endpoints.mergeSort fun a b => !(comparePriority b a).isNegative

def skipReason (ep : RankedEndpoint) : Option JsString :=
  if !isKnownKind ep.toEndpoint then some (js "unknown kind: '" ++ ep.kind ++ js "'")
  else if !isHttpDialable ep.toEndpoint then
    some (ep.kind ++ js " is not HTTP-dialable from this SDK yet")
  else none

def tryEndpoints (endpoints : List RankedEndpoint)
    (attempt : RankedEndpoint → σ → Except JsString V × σ)
    (onSkip : Option (RankedEndpoint → JsString → σ → σ)) (s : σ) :
    FallbackResult RankedEndpoint JsString V × σ :=
  Dialer.walk ⟨skipReason, attempt, onSkip⟩ (sortByPriority endpoints) s

theorem skipReason_eq_none {ep : RankedEndpoint} :
    skipReason ep = none ↔ isHttpDialable ep.toEndpoint = true := by
  have hknown : isHttpDialable ep.toEndpoint = true → isKnownKind ep.toEndpoint = true := by
    simp only [isHttpDialable, isKnownKind, List.contains_iff_mem]
    exact fun h => (show httpKinds ⊆ knownKinds by decide +kernel) h
  unfold skipReason
  cases hdial : isHttpDialable ep.toEndpoint with
  | true => simp [hknown hdial]
  | false => cases isKnownKind ep.toEndpoint <;> simp

theorem sortByPriority_le (a b : RankedEndpoint) :
    (!(comparePriority b a).isNegative) = decide (a.rank.toInt ≤ b.rank.toInt) := by
  simp only [comparePriority, JsNumber.ofInt, JsNumber.isNegative]
  by_cases h : a.rank.toInt ≤ b.rank.toInt
  · simp [h]
  · simp [h]
    omega

theorem isStableSort_sortByPriority (endpoints : List RankedEndpoint) :
    IsStableSort (·.rank.toInt) endpoints (sortByPriority endpoints) :=
  isStableSort_mergeSort (by simp [sortByPriority_le]) endpoints

end TypeScript

namespace Sdk

variable {V W σ : Type}

/-- Both SDKs read the same endpoint from the wire. -/
structure SameEndpoint (p : Python.Endpoint) (t : TypeScript.RankedEndpoint) : Prop where
  kind : t.kind = TypeScript.js p.kind
  url : t.url = TypeScript.js p.url
  priority : t.rank.toInt = p.priority
  healthHintUnix : Option.Rel (fun n x => n.natAbs ≤ TypeScript.JsNumber.maxSafeInteger →
    x = .decimal n) p.healthHintUnix t.healthHintUnix

theorem SameEndpoint.mem_kinds {p : Python.Endpoint} {t : TypeScript.RankedEndpoint}
    (h : SameEndpoint p t) (kinds : List String) :
    (kinds.map TypeScript.js).contains t.kind = kinds.contains p.kind := by
  rw [h.kind, Bool.eq_iff_iff, List.contains_iff_mem, List.contains_iff_mem]
  exact List.mem_map_of_injective Utf16.encode_injective

theorem SameEndpoint.skip {repr : String → String} {p : Python.Endpoint}
    {t : TypeScript.RankedEndpoint} (h : SameEndpoint p t) :
    (Python.skipReason repr p).isSome = (TypeScript.skipReason t).isSome := by
  have hknown : TypeScript.isKnownKind t.toEndpoint = p.isKnownKind := h.mem_kinds Python.knownKinds
  have hhttp : TypeScript.isHttpDialable t.toEndpoint = p.isHttpDialable :=
    h.mem_kinds Python.httpKinds
  unfold Python.skipReason TypeScript.skipReason
  rw [hknown, hhttp]
  cases p.isKnownKind <;> cases p.isHttpDialable <;> rfl

theorem sameEndpoint_sortByPriority {ps : List Python.Endpoint}
    {ts : List TypeScript.RankedEndpoint} (h : List.Forall₂ SameEndpoint ps ts) :
    List.Forall₂ SameEndpoint (Python.sortByPriority ps) (TypeScript.sortByPriority ts) := by
  refine forall₂_mergeSort (fun p t p' t' hpt hpt' => ?_) h
  rw [TypeScript.sortByPriority_le, hpt.priority, hpt'.priority]

/-- The loop walked the endpoints in the sender's order, and dialled those it can dial. -/
structure SenderRanked {E τ : Type} (priority : E → ℤ) (dialable : E → Bool) (endpoints : List E)
    (d : Dialer E τ V σ) (s : σ) (r : FallbackResult E τ V × σ) : Prop where
  walked : ∃ ordered, IsStableSort priority endpoints ordered ∧ d.Walked ordered s r
  dialled : ∀ a ∈ r.1.attempts, a.skippedReason = none ↔ dialable a.endpoint = true

theorem senderRanked_walk {E τ : Type} {priority : E → ℤ} {dialable : E → Bool}
    {endpoints ordered : List E} {d : Dialer E τ V σ}
    (hordered : IsStableSort priority endpoints ordered)
    (hskip : ∀ ep, d.skipReason ep = none ↔ dialable ep = true) (s : σ) :
    SenderRanked priority dialable endpoints d s (d.walk ordered s) := by
  have hwalked := d.walked_walk ordered s
  refine ⟨⟨ordered, hordered, hwalked⟩, fun a ha => ?_⟩
  rw [hwalked.trail.skippedReason a ha]
  exact hskip a.endpoint

/-- Both SDKs dial the same endpoints in the same order and report the same, and that order is the
sender's. -/
theorem fallbacks_agree (repr : String → String) (ps : List Python.Endpoint)
    (ts : List TypeScript.RankedEndpoint) (hsame : List.Forall₂ SameEndpoint ps ts)
    (attempt : Python.Endpoint → σ → Except String V × σ)
    (attempt' : TypeScript.RankedEndpoint → σ → Except TypeScript.JsString W × σ)
    (hattempt : ∀ p t, SameEndpoint p t → ∀ s,
      (attempt p s).1.isOk = (attempt' t s).1.isOk ∧ (attempt p s).2 = (attempt' t s).2)
    (onSkip : Option (Python.Endpoint → String → σ → σ))
    (onSkip' : Option (TypeScript.RankedEndpoint → TypeScript.JsString → σ → σ))
    (hnotify : ∀ p t, SameEndpoint p t → ∀ reason reason' s,
      notify onSkip p reason s = notify onSkip' t reason' s) (s : σ) :
    let python := Python.tryEndpoints repr ps attempt onSkip s
    let typescript := TypeScript.tryEndpoints ts attempt' onSkip' s
    SameResult SameEndpoint python typescript ∧
      SenderRanked Python.Endpoint.priority Python.Endpoint.isHttpDialable ps
        ⟨Python.skipReason repr, attempt, onSkip⟩ s python ∧
      SenderRanked (·.rank.toInt) (TypeScript.isHttpDialable ·.toEndpoint) ts
        ⟨TypeScript.skipReason, attempt', onSkip'⟩ s typescript := by
  refine ⟨?_, ?_, ?_⟩
  · have hdialer : SameDialer SameEndpoint (⟨Python.skipReason repr, attempt, onSkip⟩ : Dialer ..)
        ⟨TypeScript.skipReason, attempt', onSkip'⟩ :=
      ⟨SameEndpoint.skip, hattempt _ _, hnotify _ _⟩
    exact hdialer.walk (sameEndpoint_sortByPriority hsame) s
  · exact senderRanked_walk (Python.isStableSort_sortByPriority ps)
      (fun ep => Python.skipReason_eq_none) s
  · exact senderRanked_walk (TypeScript.isStableSort_sortByPriority ts)
      (fun ep => TypeScript.skipReason_eq_none) s

namespace Sample

def pythonEndpoint (kind url : String) (priority : Int32) : Python.Endpoint :=
  ⟨kind, url, priority.toInt, none⟩

def rankedEndpoint (kind url : String) (priority : Int32) : TypeScript.RankedEndpoint :=
  ⟨⟨TypeScript.js kind, TypeScript.js url, .decimal priority.toInt, none⟩, priority, rfl⟩

theorem sameEndpoint (kind url : String) (priority : Int32) :
    SameEndpoint (pythonEndpoint kind url priority) (rankedEndpoint kind url priority) :=
  ⟨rfl, rfl, rfl, .none⟩

/-- The first endpoint that is dialled is down. -/
def secondWorks {E τ : Type} (message : τ) (_ : E) (dialled : ℕ) : Except τ Unit × ℕ :=
  (if dialled = 0 then .error message else .ok (), dialled + 1)

end Sample

open Sample in
theorem fallbacks_agree_unsorted :
    SameResult SameEndpoint
      (Python.tryEndpoints id [pythonEndpoint "iroh" "iroh:node" 0, pythonEndpoint "frp" "https://b" 7,
        pythonEndpoint "frp" "https://c" (-1)] (secondWorks "down") none 0)
      (TypeScript.tryEndpoints [rankedEndpoint "iroh" "iroh:node" 0, rankedEndpoint "frp" "https://b" 7,
        rankedEndpoint "frp" "https://c" (-1)] (secondWorks (TypeScript.js "down")) none 0) := by
  refine (fallbacks_agree id _ _ ?_ _ _ ?_ none none (fun _ _ _ _ _ _ => rfl) 0).1
  · exact .cons (sameEndpoint ..) (.cons (sameEndpoint ..) (.cons (sameEndpoint ..) .nil))
  · intro p t _ dialled
    refine ⟨?_, rfl⟩
    unfold secondWorks
    split_ifs <;> rfl

end Sdk

end AgentExchange
