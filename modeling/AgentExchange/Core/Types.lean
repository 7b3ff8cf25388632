import AgentExchange.Core.Text

/-!
# Core identifiers and errors

`AgentId` is the opaque identifier every other crate passes around. The only
checked constructor is `AgentId.new`; the type itself does not carry the check,
because a derived deserialiser builds the same wrapper without calling it.
-/
namespace AgentExchange

/-- `aex_core::Error`. -/
inductive Error where
  | invalidAgentId (message : String)
  | unknownIdentityScheme
  | signatureInvalid
  | signatureFormat (message : String)
  | keyUnavailable (message : String)
  | notFound (message : String)
  | io (message : String)
  | crypto (message : String)
  | internal (message : String)
  deriving DecidableEq, Repr

def Error.display : Error → String
  | .invalidAgentId m => "invalid agent_id: " ++ m
  | .unknownIdentityScheme => "unknown identity scheme"
  | .signatureInvalid => "signature verification failed"
  | .signatureFormat m => "signature format invalid: " ++ m
  | .keyUnavailable m => "key unavailable: " ++ m
  | .notFound m => "not found: " ++ m
  | .io m => "I/O error: " ++ m
  | .crypto m => "crypto error: " ++ m
  | .internal m => "internal error: " ++ m

/-- The first character a loop over `chars().enumerate()` would stop at. -/
def firstBadChar (bad : Char → Bool) (s : String) : Option (Char × ℕ) :=
  s.toList.zipIdx.find? fun p => bad p.1

theorem firstBadChar_eq_none {bad : Char → Bool} {s : String} (h : firstBadChar bad s = none) :
    ∀ c ∈ s.toList, bad c = false := by
  intro c hc
  obtain ⟨i, hi, rfl⟩ := List.mem_iff_getElem.mp hc
  have hz : (s.toList[i], i) ∈ s.toList.zipIdx := by
    rw [List.mem_zipIdx_iff_getElem?]
    exact List.getElem?_eq_getElem hi
  simpa using List.find?_eq_none.mp h _ hz

theorem firstBadChar_eq_some {bad : Char → Bool} {s : String} {c : Char} {i : ℕ}
    (h : firstBadChar bad s = some (c, i)) : bad c = true ∧ c ∈ s.toList :=
  ⟨List.find?_some (p := fun p : Char × ℕ => bad p.1) h,
    List.fst_mem_of_mem_zipIdx (List.mem_of_find?_eq_some h)⟩

def maxAgentIdLen : ℕ := 256

structure AgentId where
  asStr : String
  deriving DecidableEq, Repr

def validateAgentId (s : String) : Except Error Unit :=
  if s.isEmpty then .error (.invalidAgentId "empty")
  else if s.utf8ByteSize > maxAgentIdLen then
    .error (.invalidAgentId
      ("length " ++ toString s.utf8ByteSize ++ " > " ++ toString maxAgentIdLen))
  else
    match firstBadChar (fun c => !isAscii c || isAsciiControl c || isWhitespace c) s with
    | some (c, i) =>
      .error (.invalidAgentId ("invalid char at " ++ toString i ++ ": " ++ charDebug c))
    | none =>
      if ':' ∈ s.toList then .ok ()
      else .error (.invalidAgentId "missing scheme separator ':'")

/-- `AgentId::new`. -/
def AgentId.new (s : String) : Except Error AgentId := do
  validateAgentId s
  pure ⟨s⟩

theorem validateAgentId_eq_ok {s : String} :
    validateAgentId s = .ok () ↔ s ≠ "" ∧ s.utf8ByteSize ≤ maxAgentIdLen ∧
      (∀ c ∈ s.toList, isAscii c = true ∧ isAsciiControl c = false ∧ isWhitespace c = false) ∧
      ':' ∈ s.toList := by
  unfold validateAgentId
  split
  · rename_i hempty
    simp_all
  rename_i hempty
  have hne : s ≠ "" := by simpa using hempty
  split
  · rename_i hlong
    simp only [reduceCtorEq, false_iff, not_and]
    omega
  rename_i hlong
  split
  · rename_i c i hbad
    simp only [reduceCtorEq, false_iff, not_and]
    intro _ _ hall
    obtain ⟨hc, hmem⟩ := firstBadChar_eq_some hbad
    simp [hall c hmem] at hc
  · rename_i hbad
    have hall := firstBadChar_eq_none hbad
    simp only [Bool.or_eq_false_iff, Bool.not_eq_false'] at hall
    split_ifs with hcolon
    · simp only [true_iff]
      exact ⟨hne, by omega, fun c hc => ⟨(hall c hc).1.1, (hall c hc).1.2, (hall c hc).2⟩, hcolon⟩
    · simp [hcolon]

theorem AgentId.new_eq_ok_iff {s : String} {id : AgentId} :
    AgentId.new s = .ok id ↔ validateAgentId s = .ok () ∧ id = ⟨s⟩ := by
  unfold AgentId.new
  rw [Library.except_bind_eq_ok]
  constructor
  · intro h
    obtain ⟨u, hv, hid⟩ := h
    cases hid
    exact ⟨hv, rfl⟩
  · intro h
    obtain ⟨hv, rfl⟩ := h
    exact ⟨(), hv, rfl⟩

theorem AgentId.new_eq_ok {s : String} {id : AgentId} (h : AgentId.new s = .ok id) :
    id.asStr = s ∧ ':' ∈ s.toList := by
  obtain ⟨hv, rfl⟩ := AgentId.new_eq_ok_iff.mp h
  exact ⟨rfl, (validateAgentId_eq_ok.mp hv).2.2.2⟩

theorem AgentId.eq_of_new {s : String} {id : AgentId} (h : AgentId.new s = .ok id) : id = ⟨s⟩ := by
  rw [← (AgentId.new_eq_ok h).1]

/-! ## Schemes and DID URIs -/

inductive IdScheme where
  | spizeNative
  | didSpize
  | didEthr
  | didWeb
  | didKey
  | unknown
  deriving DecidableEq

def AgentId.scheme (id : AgentId) : IdScheme :=
  if startsWith "spize:" id.asStr then .spizeNative
  else if startsWith "did:spize:" id.asStr then .didSpize
  else if startsWith "did:ethr:" id.asStr then .didEthr
  else if startsWith "did:web:" id.asStr then .didWeb
  else if startsWith "did:key:" id.asStr then .didKey
  else .unknown

/-- The components of a W3C DID URI. -/
structure DidUri where
  method : String
  methodSpecificId : String
  fragment : Option String
  deriving DecidableEq

def DidUri.parse (s : String) : Option DidUri := do
  let rest ← dropStart "did:" s
  let (method, afterMethod) ← splitOnce ':' rest
  if method.isEmpty then failure
  if !method.toList.all (fun c => ('a' ≤ c && c ≤ 'z') || ('0' ≤ c && c ≤ '9')) then failure
  let (msi, fragment) :=
    match splitOnce '#' afterMethod with
    | some (id, frag) => (id, some frag)
    | none => (afterMethod, none)
  if msi.isEmpty then failure
  if fragment = some "" then failure
  pure ⟨method, msi, fragment⟩

def AgentId.asDidUri (id : AgentId) : Option DidUri := DidUri.parse id.asStr

example : DidUri.parse "did:web:acme.com#agent-vendite" =
    some ⟨"web", "acme.com", some "agent-vendite"⟩ := by decide

end AgentExchange
